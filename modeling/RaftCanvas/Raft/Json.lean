import Mathlib.Data.Rat.Defs

/-!
# JSON values as the replicas see them

Request bodies and stored payloads are JSON values, so the state machine works on
them with JavaScript's own operators.  The operators are given for JSON values
only: `undefined` is an absent field, and two separately parsed objects or arrays
are never the same value.
-/

namespace RaftCanvas

/-- A JSON value.  Object keys are in insertion order. -/
inductive Json where
  | null
  | bool (value : Bool)
  | num (value : Rat)
  | str (value : String)
  | arr (items : List Json)
  | obj (fields : List (String × Json))

namespace Json

/-- `value?.key` followed by a `!= null` test. -/
def field? (value : Json) (key : String) : Option Json :=
  match value with
  | .obj fields =>
      match fields.lookup key with
      | none | some .null => none
      | some found => some found
  | _ => none

/-- JavaScript truthiness. -/
def truthy : Json → Bool
  | .null => false
  | .bool value => value
  | .num value => value ≠ 0
  | .str value => value ≠ ""
  | .arr _ | .obj _ => true

/-- Own enumerable properties, as object spread copies them. -/
def ownProperties : Json → List (String × Json)
  | .obj fields => fields
  | .arr items => items.zipIdx.map fun item => (toString item.2, item.1)
  | .str value => value.toList.zipIdx.map fun item =>
      (toString item.2, .str (String.singleton item.1))
  | .null | .bool _ | .num _ => []

/-- Assign one property: an existing key keeps its place. -/
def assign (fields : List (String × Json)) (property : String × Json) :
    List (String × Json) :=
  if fields.any fun other => other.1 = property.1 then
    fields.map fun other => if other.1 = property.1 then property else other
  else
    fields ++ [property]

/-- `{ ...fields, ...properties }` -/
def spread (fields properties : List (String × Json)) : List (String × Json) :=
  properties.foldl assign fields

section Spread

variable {fields properties : List (String × Json)} {property : String × Json}
  {key : String}

private theorem lookup_replace :
    (fields.map fun other => if other.1 = property.1 then property else other).lookup key =
      if key = property.1 then (fields.lookup key).map fun _ => property.2
      else fields.lookup key := by
  obtain ⟨name, value⟩ := property
  induction fields with
  | nil => simp
  | cons first fields ih =>
      obtain ⟨other, old⟩ := first
      rw [List.map_cons, List.lookup_cons]
      by_cases replaced : other = name
      · by_cases same : key = name
        · simp [replaced, same]
        · simpa [List.lookup_cons, replaced, same, beq_eq_decide] using ih
      · by_cases own : key = other
        · simp [replaced, own]
        · simpa [List.lookup_cons, replaced, own, beq_eq_decide] using ih

theorem lookup_assign : (assign fields property).lookup key =
    if key = property.1 then some property.2 else fields.lookup key := by
  unfold assign
  split
  next present =>
      rw [lookup_replace]
      obtain ⟨other, inside, same⟩ := List.any_eq_true.mp present
      split
      next own =>
          have held : (fields.lookup key).isSome = true := by
            rw [List.lookup_isSome_iff]
            exact ⟨other, inside, by simpa [own] using (of_decide_eq_true same).symm⟩
          obtain ⟨value, found⟩ := Option.isSome_iff_exists.mp held
          rw [found, Option.map_some]
      · rfl
  next absent =>
      rw [List.lookup_append]
      obtain ⟨name, value⟩ := property
      split
      next own =>
          have missing : fields.lookup key = none := by
            rw [List.lookup_eq_none_iff]
            intro other inside
            simp only [List.any_eq_true, not_exists, not_and, decide_eq_true_eq] at absent
            exact bne_iff_ne.mpr fun same => absent other inside (same.symm.trans own)
          obtain rfl : key = name := own
          simp [missing]
      next other =>
          simp [List.lookup_cons, beq_false_of_ne (show key ≠ name from other)]

/-- A copied property overwrites one of the same name. -/
theorem lookup_spread (distinct : (properties.map Prod.fst).Nodup) :
    (spread fields properties).lookup key =
      (properties.lookup key).or (fields.lookup key) := by
  induction properties generalizing fields with
  | nil => simp [spread]
  | cons property properties ih =>
      obtain ⟨name, value⟩ := property
      rw [List.map_cons, List.nodup_cons] at distinct
      show (spread (assign fields (name, value)) properties).lookup key = _
      rw [ih distinct.2, lookup_assign, List.lookup_cons]
      by_cases own : key = name
      · have missing : properties.lookup key = none := by
          rw [List.lookup_eq_none_iff]
          intro other inside
          have different := ne_of_mem_of_not_mem (List.mem_map_of_mem inside) distinct.1
          exact bne_iff_ne.mpr fun same => different (same.symm.trans own)
        subst own
        simp [missing]
      · simp [own, beq_eq_decide]

/-- A name that is not copied keeps its value. -/
theorem lookup_spread_of_none (missing : properties.lookup key = none) :
    (spread fields properties).lookup key = fields.lookup key := by
  induction properties generalizing fields with
  | nil => rfl
  | cons property properties ih =>
      obtain ⟨name, value⟩ := property
      rw [List.lookup_cons] at missing
      split at missing
      · simp at missing
      next other =>
          show (spread (assign fields (name, value)) properties).lookup key = _
          rw [ih missing, lookup_assign, if_neg (by simpa using other)]

/-- No name gets lost. -/
theorem lookup_spread_isSome (held : (fields.lookup key).isSome = true ∨
    (properties.lookup key).isSome = true) :
    ((spread fields properties).lookup key).isSome = true := by
  induction properties generalizing fields with
  | nil => simpa [spread] using held
  | cons property properties ih =>
      show ((spread (assign fields property) properties).lookup key).isSome = true
      refine ih ?_
      obtain ⟨name, value⟩ := property
      rw [lookup_assign]
      by_cases own : key = name
      · exact Or.inl (by simp [own])
      · rw [List.lookup_cons, beq_false_of_ne own] at held
        exact held.imp (fun old => by simpa [own] using old) id

theorem filter_assign (keep : String → Bool) :
    (assign fields property).filter (fun other => keep other.1) =
      if keep property.1 then assign (fields.filter fun other => keep other.1) property
      else fields.filter fun other => keep other.1 := by
  have renamed : ∀ other : String × Json,
      keep (if other.1 = property.1 then property else other).1 = keep other.1 := by
    intro other
    split
    next same => rw [same]
    next => rfl
  have replaced : (fields.map fun other => if other.1 = property.1 then property else other).filter
      (fun other => keep other.1) = (fields.filter fun other => keep other.1).map
        fun other => if other.1 = property.1 then property else other := by
    rw [List.filter_map]
    exact congrArg _ (List.filter_congr fun other _ => renamed other)
  cases kept : keep property.1 with
  | true =>
      have same : (fields.filter fun other => keep other.1).any
          (fun other => other.1 = property.1) =
            fields.any fun other => other.1 = property.1 := by
        rw [List.any_filter]
        refine congrArg _ (funext fun other => ?_)
        by_cases own : other.1 = property.1 <;> simp [own, kept]
      rw [if_pos rfl, assign, assign, same]
      split
      · exact replaced
      · simp [List.filter_append, kept]
  | false =>
      rw [if_neg Bool.false_ne_true, assign]
      split
      · rw [replaced]
        refine (List.map_congr_left fun other member => if_neg fun same => ?_).trans
          (List.map_id _)
        have passed := (List.mem_filter.mp member).2
        rw [same, kept] at passed
        exact Bool.false_ne_true passed
      · simp [List.filter_append, kept]

/-- Leaving out names commutes with copying. -/
theorem filter_spread (keep : String → Bool) :
    (spread fields properties).filter (fun other => keep other.1) =
      spread (fields.filter fun other => keep other.1)
        (properties.filter fun other => keep other.1) := by
  induction properties generalizing fields with
  | nil => rfl
  | cons property properties ih =>
      show (spread (assign fields property) properties).filter _ = _
      rw [ih, filter_assign, List.filter_cons]
      split <;> rfl

/-- Copying distinct new names appends them. -/
theorem spread_eq_append (distinct : ((fields ++ properties).map Prod.fst).Nodup) :
    spread fields properties = fields ++ properties := by
  induction properties generalizing fields with
  | nil => simp [spread]
  | cons property properties ih =>
      have absent : ¬(fields.any fun other => other.1 = property.1) = true := by
        rw [List.map_append, List.nodup_append] at distinct
        simp only [List.any_eq_true, not_exists, not_and, decide_eq_true_eq]
        intro other inside
        exact distinct.2.2 _ (List.mem_map_of_mem inside) _ (by simp)
      have added : assign fields property = fields ++ [property] := by
        rw [assign, if_neg absent]
      show spread (assign fields property) properties = _
      rw [added, ih (by simpa using distinct), List.append_assoc, List.singleton_append]

end Spread

/-- Key equality of a `Map`. -/
def sameValueZero : Json → Json → Bool
  | .null, .null => true
  | .bool left, .bool right => left = right
  | .num left, .num right => left = right
  | .str left, .str right => left = right
  | _, _ => false

end Json

/-- JavaScript's `>=` on JSON values.  Only its meaning on two numbers is fixed;
comparisons that coerce are left to the engine. -/
structure Relational where
  ge : Json → Json → Bool
  ge_num : ∀ left right : Rat, ge (.num left) (.num right) = decide (right ≤ left)

/-- An engine for clients that count with numbers. -/
def Relational.numeric : Relational where
  ge
    | .num left, .num right => decide (right ≤ left)
    | _, _ => false
  ge_num _ _ := rfl

end RaftCanvas
