import RouteBook.Schema.Fields
import RouteBook.Proofs.Document.RowTable
import RouteBook.Proofs.Schema.RowPlaces
/-! # Rows of a schema in an endpoint

An endpoint keeps rows by their keys, so rows of one schema could replace each other.  They never do
if the keys of its fields are names (`Endpoint.rows_kept_in_order`): the key of a row is then a path
from which the way to its node can be read again, so no two rows have one key
(`Schema.nodup_keys_rows`).
-/
namespace RouteBook
namespace Endpoint

/-- **All rows of a schema are kept in order**, be it in the request or in the response, if the keys of
its fields are names and no two fields of one object have the same key.  The key of the root may be
any text. -/
theorem rows_kept_in_order {s : Schema} (names : s.all Schema.hasNames = true)
    (distinct : s.all Schema.hasDistinctKeys = true) :
    (s.rows.map Row.key).Nodup ∧
    (∀ e : Endpoint, e.requestRows = [] →
      (e.addRequestRows s.rows).requestRows.map Prod.snd = s.rows) ∧
    ∀ e : Endpoint, e.responseRows = [] →
      (e.addResponseRows s.rows).responseRows.map Prod.snd = s.rows := by
  have keys := Schema.nodup_keys_rows names distinct
  refine ⟨keys, fun e he => ?_, fun e he => ?_⟩
  · rw [requestRows_addRequestRows, he]
    exact (Row.putAll_eq_iff s.rows).mpr keys
  · rw [responseRows_addResponseRows, he]
    exact (Row.putAll_eq_iff s.rows).mpr keys

/-- Batches of lines, with a key at the root that looks like a path itself. -/
def batches : Schema :=
  let line := (Schema.emptyObject "Line").addField ((Schema.ofText "String" "").withKey "sku]")
  ((Schema.emptyObject "Order").withKey "lines[].sku").addField
    ((Schema.ofElement (Schema.ofElement line)).withKey "lines")

/-- The three rows of the batches stay as they are. -/
theorem batches_kept_in_order :
    ((new "order").addRequestRows batches.rows).requestRows.map Prod.snd = batches.rows ∧
      batches.rows.length = 3 := by
  have kept := rows_kept_in_order (s := batches) (by decide) (by decide)
  refine ⟨kept.2.1 _ rfl, ?_⟩
  rw [(Schema.rows_eq_rowsUnder batches).1]
  rfl

end Endpoint
end RouteBook
