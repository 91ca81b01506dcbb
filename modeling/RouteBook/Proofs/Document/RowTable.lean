import RouteBook.Document.Endpoint
/-! # Rows by their keys

An endpoint keeps rows by their keys: a row takes the place of an earlier one with its key, and any
other goes last.  `Row.putAll` puts rows in one after another.  All of them are kept in order iff
no two of them have one key (`Row.putAll_eq_iff`), and that can be seen by counting them as well
(`Row.length_putAll_eq_iff`).
-/
namespace RouteBook

namespace Row

/-- Puts rows one after another into a table by their keys. -/
def putAll (table : List (String × Row)) (rows : List Row) : List (String × Row) :=
  rows.foldl (fun table row => insertPair row.key row table) table

theorem putAll_append (table : List (String × Row)) (rows more : List Row) :
    putAll table (rows ++ more) = putAll (putAll table rows) more :=
  List.foldl_append

/-- Rows with new keys all go last. -/
theorem putAll_of_nodup {table : List (String × Row)} {rows : List Row}
    (h : (table.map Prod.fst ++ rows.map Row.key).Nodup) :
    putAll table rows = table ++ rows.map fun row => (row.key, row) := by
  induction rows generalizing table with
  | nil => exact (List.append_nil table).symm
  | cons row rows ih =>
    have new : row.key ∉ table.map Prod.fst := by
      intro hmem
      have disjoint := (List.nodup_append.mp h).2.2
      exact disjoint _ hmem _ List.mem_cons_self rfl
    have rest : ((table ++ [(row.key, row)]).map Prod.fst ++ rows.map Row.key).Nodup := by
      rw [List.map_append, List.append_assoc]
      exact h
    show putAll (insertPair row.key row table) rows = _
    rw [insertPair_of_notMem row new, ih rest, List.append_assoc]
    rfl

theorem length_insertPair_of_mem {key : String} (row : Row) {table : List (String × Row)}
    (h : key ∈ table.map Prod.fst) : (insertPair key row table).length = table.length := by
  have keys := congrArg List.length (keys_insertPair key row table)
  rw [if_pos h, List.length_map, List.length_map] at keys
  exact keys

/-- A table grows by a row at most for each row that is put in. -/
theorem length_putAll_le (table : List (String × Row)) (rows : List Row) :
    (putAll table rows).length ≤ table.length + rows.length := by
  induction rows generalizing table with
  | nil => exact Nat.le_refl _
  | cons row rows ih =>
    have rest := ih (insertPair row.key row table)
    show (putAll (insertPair row.key row table) rows).length ≤ _
    rw [List.length_cons]
    by_cases h : row.key ∈ table.map Prod.fst
    · rw [length_insertPair_of_mem row h] at rest
      omega
    · have grown : (insertPair row.key row table).length = table.length + 1 := by
        rw [insertPair_of_notMem row h, List.length_append, List.length_singleton]
      omega

/-- A table that has grown by all rows that were put in has not lost one. -/
theorem nodup_of_length_putAll {table : List (String × Row)} {rows : List Row}
    (htable : (table.map Prod.fst).Nodup)
    (h : (putAll table rows).length = table.length + rows.length) :
    (table.map Prod.fst ++ rows.map Row.key).Nodup := by
  induction rows generalizing table with
  | nil =>
    rw [List.map_nil, List.append_nil]
    exact htable
  | cons row rows ih =>
    have hput : (putAll (insertPair row.key row table) rows).length =
        table.length + (rows.length + 1) := h
    by_cases known : row.key ∈ table.map Prod.fst
    · -- a row that replaces another one leaves too little room for the others
      have bound := length_putAll_le (insertPair row.key row table) rows
      rw [length_insertPair_of_mem row known] at bound
      omega
    · rw [insertPair_of_notMem row known] at hput
      have grown : ((table ++ [(row.key, row)]).map Prod.fst).Nodup := by
        rw [List.map_append]
        refine List.nodup_append.mpr ⟨htable, List.pairwise_singleton _ _, ?_⟩
        intro key hkey other hother he
        rw [he, List.mem_singleton.mp hother] at hkey
        exact known hkey
      have rest := ih grown (by
        rw [hput, List.length_append, List.length_singleton]
        omega)
      rw [List.map_append, List.append_assoc] at rest
      exact rest

/-- The table grows by all rows iff no two of them have one key. -/
theorem length_putAll_eq_iff (rows : List Row) :
    (putAll [] rows).length = rows.length ↔ (rows.map Row.key).Nodup := by
  constructor
  · intro h
    have start : (([] : List (String × Row)).map Prod.fst).Nodup := List.nodup_nil
    exact nodup_of_length_putAll start (by rw [h, List.length_nil, Nat.zero_add])
  · intro h
    rw [putAll_of_nodup (by exact h), List.nil_append, List.length_map]

/-- **All rows are kept in order iff no two of them have one key.** -/
theorem putAll_eq_iff (rows : List Row) :
    (putAll [] rows).map Prod.snd = rows ↔ (rows.map Row.key).Nodup := by
  constructor
  · intro h
    have hlength := congrArg List.length h
    rw [List.length_map] at hlength
    exact (length_putAll_eq_iff rows).mp hlength
  · intro h
    rw [putAll_of_nodup (by exact h), List.nil_append, List.map_map]
    exact List.map_id _

end Row

namespace Endpoint

theorem requestRows_addRequestRows (e : Endpoint) (rows : List Row) :
    (e.addRequestRows rows).requestRows = Row.putAll e.requestRows rows := by
  induction rows generalizing e with
  | nil => rfl
  | cons row rows ih => exact ih (e.addRequestRow row)

theorem requestRows_addResponseRows (e : Endpoint) (rows : List Row) :
    (e.addResponseRows rows).requestRows = e.requestRows := by
  induction rows generalizing e with
  | nil => rfl
  | cons row rows ih => exact ih (e.addResponseRow row)

theorem responseRows_addResponseRows (e : Endpoint) (rows : List Row) :
    (e.addResponseRows rows).responseRows = Row.putAll e.responseRows rows := by
  induction rows generalizing e with
  | nil => rfl
  | cons row rows ih => exact ih (e.addResponseRow row)

end Endpoint
end RouteBook
