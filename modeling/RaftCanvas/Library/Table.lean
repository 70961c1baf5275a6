import Mathlib.Data.List.Sort

/-!
# Tables with a primary key

A table is a list of rows in whatever order they are stored, no two of them with the same
key.  The statements below are the usual ones of SQL.  A table listed in the order of its
keys tells all there is to know about it, so a query never depends on the storage order.
-/

namespace Table

variable {Row Key : Type} [LinearOrder Key] (key : Row → Key)

/-- The key is one. -/
def Keyed (rows : List Row) : Prop :=
  (rows.map key).Nodup

/-- `INSERT OR REPLACE` -/
def insertOrReplace (row : Row) (rows : List Row) : List Row :=
  rows.filter (fun other => key other ≠ key row) ++ [row]

/-- `INSERT OR IGNORE` -/
def insertOrIgnore (row : Row) (rows : List Row) : List Row :=
  if rows.any fun other => key other = key row then rows else rows ++ [row]

/-- `DELETE ... WHERE` -/
def delete (condition : Row → Bool) (rows : List Row) : List Row :=
  rows.filter fun row => !condition row

/-- `UPDATE ... SET ... WHERE` -/
def update (condition : Row → Bool) (set : Row → Row) (rows : List Row) : List Row :=
  rows.map fun row => if condition row then set row else row

/-- `SELECT ... ORDER BY key ASC` -/
def ascending (rows : List Row) : List Row :=
  rows.insertionSort fun left right => key left ≤ key right

/-- `SELECT ... ORDER BY key DESC` -/
def descending (rows : List Row) : List Row :=
  rows.insertionSort fun left right => key right ≤ key left

variable {key} {rows : List Row} {row : Row}

/-! ## Order -/

instance ascending_total : Std.Total fun left right : Row => key left ≤ key right :=
  ⟨fun left right => le_total (key left) (key right)⟩

instance ascending_trans : IsTrans Row fun left right => key left ≤ key right :=
  ⟨fun _ _ _ => le_trans⟩

instance descending_total : Std.Total fun left right : Row => key right ≤ key left :=
  ⟨fun left right => le_total (key right) (key left)⟩

instance descending_trans : IsTrans Row fun left right => key right ≤ key left :=
  ⟨fun _ _ _ first second => le_trans second first⟩

omit [LinearOrder Key] in
theorem Keyed.perm (keyed : Keyed key rows) {other : List Row} (same : rows.Perm other) :
    Keyed key other :=
  (same.map key).nodup keyed

theorem keyed_of_increasing (increasing : rows.Pairwise fun left right => key left < key right) :
    Keyed key rows :=
  List.Pairwise.map key (fun _ _ => ne_of_lt) increasing

theorem Keyed.increasing (keyed : Keyed key rows)
    (ordered : rows.Pairwise fun left right => key left ≤ key right) :
    rows.Pairwise fun left right => key left < key right :=
  (ordered.and (List.pairwise_map.mp keyed)).imp fun ⟨le, ne⟩ => lt_of_le_of_ne le ne

theorem ascending_perm (rows : List Row) : (ascending key rows).Perm rows :=
  List.perm_insertionSort _ rows

theorem Keyed.ascending (keyed : Keyed key rows) :
    (ascending key rows).Pairwise fun left right => key left < key right :=
  (keyed.perm (ascending_perm rows).symm).increasing (List.pairwise_insertionSort _ rows)

/-- However a table is stored, it is listed in one way. -/
theorem ascending_eq {sorted : List Row} (same : rows.Perm sorted)
    (increasing : sorted.Pairwise fun left right => key left < key right) :
    ascending key rows = sorted := by
  have keyed : Keyed key rows := (keyed_of_increasing increasing).perm same.symm
  refine List.Perm.eq_of_pairwise ?_ keyed.ascending increasing
    ((ascending_perm rows).trans same)
  intro left right _ _ before after
  exact absurd after (lt_asymm before)

/-- The last row of the ascending list is the first of the descending one. -/
theorem Keyed.descending (keyed : Keyed key rows) :
    descending key rows = (Table.ascending key rows).reverse := by
  have ordered : (Table.descending key rows).Pairwise fun left right => key right ≤ key left :=
    List.pairwise_insertionSort _ rows
  have same : (Table.descending key rows).Perm rows := List.perm_insertionSort _ rows
  have reversed : Table.ascending key rows = (Table.descending key rows).reverse := by
    refine ascending_eq (same.symm.trans (List.reverse_perm _).symm) ?_
    have keyed' : Keyed key (Table.descending key rows).reverse :=
      keyed.perm (same.symm.trans (List.reverse_perm _).symm)
    exact keyed'.increasing (List.pairwise_reverse.mpr ordered)
  rw [reversed, List.reverse_reverse]

theorem Keyed.last (keyed : Keyed key rows) :
    (Table.descending key rows).head? = (Table.ascending key rows).getLast? := by
  rw [keyed.descending, List.head?_reverse]

/-! ## Statements -/

omit [LinearOrder Key] in
/-- A row is found by its key alone. -/
theorem Keyed.find?_eq_some [DecidableEq Key] (keyed : Keyed key rows) {value : Key} :
    rows.find? (fun other => key other = value) = some row ↔ row ∈ rows ∧ key row = value := by
  constructor
  · intro found
    exact ⟨List.mem_of_find?_eq_some found, by simpa using List.find?_some found⟩
  · rintro ⟨member, rfl⟩
    cases found : rows.find? (fun other => key other = key row) with
    | none =>
        rw [List.find?_eq_none] at found
        simpa using found row member
    | some other =>
        have same : key other = key row := by simpa using List.find?_some found
        rw [List.inj_on_of_nodup_map keyed (List.mem_of_find?_eq_some found) member same]

theorem Keyed.find?_ascending (keyed : Keyed key rows) (value : Key) :
    (Table.ascending key rows).find? (fun other => key other = value) =
      rows.find? fun other => key other = value := by
  have sorted : Keyed key (Table.ascending key rows) := keyed.perm (ascending_perm rows).symm
  refine Option.ext fun row => ?_
  rw [sorted.find?_eq_some, keyed.find?_eq_some, (ascending_perm rows).mem_iff]

omit [LinearOrder Key] in
theorem Keyed.filter (keyed : Keyed key rows) (keep : Row → Bool) :
    Keyed key (rows.filter keep) :=
  (List.filter_sublist.map key).nodup keyed

/-- Deleting rows takes them out of the list. -/
theorem Keyed.ascending_filter (keyed : Keyed key rows) (keep : Row → Bool) :
    Table.ascending key (rows.filter keep) = (Table.ascending key rows).filter keep :=
  ascending_eq ((ascending_perm rows).symm.filter keep) (keyed.ascending.filter keep)

theorem Keyed.insertOrReplace (keyed : Keyed key rows) :
    Keyed key (insertOrReplace key row rows) := by
  rw [Keyed, Table.insertOrReplace, List.map_append, List.map_singleton]
  refine List.nodup_append.mpr ⟨keyed.filter _, List.nodup_singleton _, ?_⟩
  intro other member last found
  obtain ⟨before, inside, rfl⟩ := List.mem_map.mp member
  rw [List.mem_singleton.mp found]
  simpa using (List.mem_filter.mp inside).2

/-- The inserted row goes between the rows with smaller and with greater keys. -/
theorem Keyed.ascending_insertOrReplace (keyed : Keyed key rows) :
    Table.ascending key (Table.insertOrReplace key row rows) =
      (Table.ascending key rows).filter (fun other => key other < key row) ++
        row :: (Table.ascending key rows).filter (fun other => key row < key other) := by
  have others : (rows.filter fun other => key other ≠ key row).Perm
      ((Table.ascending key rows).filter (fun other => key other < key row) ++
        (Table.ascending key rows).filter fun other => key row < key other) := by
    have split := List.filter_append_perm (fun other => decide (key other < key row))
      ((Table.ascending key rows).filter fun other => decide (key other ≠ key row))
    rw [List.filter_filter, List.filter_filter] at split
    have below : (Table.ascending key rows).filter (fun other =>
        decide (key other < key row) && decide (key other ≠ key row)) =
          (Table.ascending key rows).filter fun other => key other < key row :=
      List.filter_congr fun other _ => by simpa using ne_of_lt
    have above : (Table.ascending key rows).filter (fun other =>
        !decide (key other < key row) && decide (key other ≠ key row)) =
          (Table.ascending key rows).filter fun other => key row < key other :=
      List.filter_congr fun other _ => by
        rw [Bool.eq_iff_iff, Bool.and_eq_true, Bool.not_eq_true', decide_eq_false_iff_not,
          not_lt, decide_eq_true_eq, decide_eq_true_eq, lt_iff_le_and_ne, ne_comm]
    rw [below, above] at split
    exact ((ascending_perm rows).symm.filter _).trans split.symm
  refine ascending_eq ?_ (List.pairwise_append.mpr ⟨keyed.ascending.filter _, ?_, ?_⟩)
  · exact (others.append_right [row]).trans
      ((List.append_assoc _ _ _).symm ▸ (List.perm_append_comm.append_left _))
  · refine List.pairwise_cons.mpr ⟨fun other member => ?_, keyed.ascending.filter _⟩
    simpa using (List.mem_filter.mp member).2
  · intro left leftMember right rightMember
    have before : key left < key row := by simpa using (List.mem_filter.mp leftMember).2
    rcases List.mem_cons.mp rightMember with rfl | rightMember
    · exact before
    · have after : key row < key right := by simpa using (List.mem_filter.mp rightMember).2
      exact before.trans after

end Table
