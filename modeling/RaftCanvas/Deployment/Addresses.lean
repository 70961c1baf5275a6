import Mathlib.Data.List.TakeWhile

/-!
# Addresses

A replica announces the URL at which it listens.  Others know only its name when they send
a client on to it, and compute the port from the name.  For names and ports like those of
the deployment, the two agree.
-/

namespace RaftCanvas

/-- `REPLICA_ID` and `REPLICA_PORT`. -/
structure Hosts (Id : Type) where
  name : Id → String
  port : Id → Nat

/-- `text.replace(pattern, "")` -/
def replaceFirst (pattern : List Char) : List Char → List Char
  | [] => []
  | first :: rest =>
      if pattern.isPrefixOf (first :: rest) then (first :: rest).drop pattern.length
      else first :: replaceFirst pattern rest

/-- The number that the digits in front stand for. -/
def leadingNumber (base : Nat) (digit : Char → Option Nat) (text : List Char) : Option Nat :=
  match (text.map digit).takeWhile Option.isSome with
  | [] => none
  | digits => some (digits.foldl (fun number digit => number * base + digit.getD 0) 0)

def decimal (c : Char) : Option Nat :=
  if c.isDigit then some (c.toNat - '0'.toNat) else none

def hexadecimal (c : Char) : Option Nat :=
  if c.isDigit then some (c.toNat - '0'.toNat)
  else if 'a' ≤ c ∧ c ≤ 'f' then some (c.toNat - 'a'.toNat + 10)
  else if 'A' ≤ c ∧ c ≤ 'F' then some (c.toNat - 'A'.toNat + 10)
  else none

/-- `WhiteSpace` and `LineTerminator` of the language. -/
def isWhiteSpace (c : Char) : Bool :=
  c.toNat ∈ [0x9, 0xA, 0xB, 0xC, 0xD, 0x20, 0xA0, 0x1680, 0x2028, 0x2029, 0x202F, 0x205F, 0x3000,
    0xFEFF] ∨ 0x2000 ≤ c.toNat ∧ c.toNat ≤ 0x200A

/-- `parseInt`; `none` is `NaN`. -/
def parseInt (text : List Char) : Option Int :=
  let text := text.dropWhile isWhiteSpace
  let negative := text.head? = some '-'
  let text := if text.head? = some '-' ∨ text.head? = some '+' then text.tail else text
  let number :=
    if text.take 2 = ['0', 'x'] ∨ text.take 2 = ['0', 'X'] then
      leadingNumber 16 hexadecimal (text.drop 2)
    else leadingNumber 10 decimal text
  number.map fun (number : Nat) => if negative then -(number : Int) else number

/-- `_portFor`, as it appears in a URL. -/
def portFor (id : String) : String :=
  let num := replaceFirst "replica".toList id.toList
  match parseInt (if num = [] then ['1'] else num) with
  | some num => toString (4000 + num)
  | none => "NaN"

namespace Hosts

variable {Id : Type} (hosts : Hosts Id)

/-- The URL that a replica announces, and at which it is reached. -/
def url (self : Id) : String :=
  s!"http://{hosts.name self}:{hosts.port self}"

/-- The URL that others name for a replica. -/
def hintUrl (leader : Id) : String :=
  s!"http://{hosts.name leader}:{portFor (hosts.name leader)}"

end Hosts

/-! ## Names of the deployment -/

theorem replaceFirst_append {pattern : List Char} (nonempty : pattern ≠ []) (rest : List Char) :
    replaceFirst pattern (pattern ++ rest) = rest := by
  cases pattern with
  | nil => exact absurd rfl nonempty
  | cons first pattern =>
      rw [List.cons_append, replaceFirst, if_pos, ← List.cons_append, List.drop_left]
      rw [List.isPrefixOf_iff_prefix, ← List.cons_append]
      exact List.prefix_append _ _

theorem decimal_of_isDigit {c : Char} (digit : c.isDigit = true) :
    decimal c = some (c.toNat - '0'.toNat) := by
  rw [decimal, if_pos digit]

/-- Digits stand for the number that is written with them. -/
theorem leadingNumber_toDigits (number : Nat) :
    leadingNumber 10 decimal (Nat.toDigits 10 number) = some number := by
  have digits : (Nat.toDigits 10 number).map decimal =
      (Nat.toDigits 10 number).map fun c => some (c.toNat - '0'.toNat) := by
    refine List.map_congr_left fun c member => decimal_of_isDigit ?_
    exact Nat.isDigit_of_mem_toDigits (by decide) (by decide) member
  have all : ((Nat.toDigits 10 number).map fun c =>
      some (c.toNat - '0'.toNat)).takeWhile Option.isSome =
        (Nat.toDigits 10 number).map fun c => some (c.toNat - '0'.toNat) := by
    refine List.takeWhile_eq_self_iff.mpr fun digit member => ?_
    obtain ⟨_, _, rfl⟩ := List.mem_map.mp member
    rfl
  rw [leadingNumber, digits, all]
  split
  next nothing => simp at nothing
  next =>
      rw [List.foldl_map]
      have value := @Nat.ofDigitChars_ten_toDigits number
      rw [Nat.ofDigitChars_eq_foldl] at value
      simpa only [Option.getD_some, Nat.mul_comm] using congrArg some value

/-- What starts with a digit has no space, sign or base in front. -/
theorem parseInt_of_isDigit {c : Char} (digit : c.isDigit = true) (rest : List Char)
    (base : (c :: rest).take 2 ≠ ['0', 'x'] ∧ (c :: rest).take 2 ≠ ['0', 'X']) :
    parseInt (c :: rest) =
      (leadingNumber 10 decimal (c :: rest)).map Int.ofNat := by
  have solid : ¬isWhiteSpace c = true := by
    have range : 48 ≤ c.toNat ∧ c.toNat ≤ 57 := by
      simpa [Char.isDigit, UInt32.le_iff_toNat_le] using digit
    simp only [isWhiteSpace, List.mem_cons, List.not_mem_nil, or_false, decide_eq_true_eq]
    omega
  have unsigned : c ≠ '-' ∧ c ≠ '+' := by
    constructor <;> rintro rfl <;> cases digit
  rw [parseInt, List.dropWhile_cons_of_neg solid]
  simp only [List.head?_cons, Option.some.injEq, unsigned.1, unsigned.2, base.1, base.2,
    or_self, if_false]
  rfl

theorem parseInt_toDigits (number : Nat) :
    parseInt (Nat.toDigits 10 number) = some (number : Int) := by
  have digits : ∀ c ∈ Nat.toDigits 10 number, c.isDigit = true := fun c member =>
    Nat.isDigit_of_mem_toDigits (by decide) (by decide) member
  have stands := leadingNumber_toDigits number
  cases text : Nat.toDigits 10 number with
  | nil => exact absurd text Nat.toDigits_ne_nil
  | cons c rest =>
      rw [text] at digits stands
      have base : ∀ letter : Char, letter.isDigit = false → (c :: rest).take 2 ≠ ['0', letter] := by
        intro letter other same
        have member : letter ∈ (c :: rest).take 2 := by simp [same]
        rw [digits letter (List.mem_of_mem_take member)] at other
        cases other
      rw [parseInt_of_isDigit (digits c List.mem_cons_self) rest
        ⟨base 'x' (by decide), base 'X' (by decide)⟩, stands]
      rfl

theorem portFor_replica (number : Nat) :
    portFor ("replica" ++ toString number) = toString (4000 + number) := by
  have num : replaceFirst "replica".toList ("replica" ++ toString number).toList =
      Nat.toDigits 10 number := by
    rw [String.toList_append, replaceFirst_append (by decide)]
    exact Nat.toList_repr
  rw [portFor, num, if_neg Nat.toDigits_ne_nil, parseInt_toDigits]
  rfl

/-- The replicas are named and reached as in the deployment. -/
def Hosts.Composed {Id : Type} (hosts : Hosts Id) : Prop :=
  ∀ self, ∃ number : Nat,
    hosts.name self = "replica" ++ toString number ∧ hosts.port self = 4000 + number

theorem Hosts.Composed.hintUrl {Id : Type} {hosts : Hosts Id} (composed : hosts.Composed)
    (leader : Id) : hosts.hintUrl leader = hosts.url leader := by
  obtain ⟨number, name, port⟩ := composed leader
  have same : portFor (hosts.name leader) = toString (hosts.port leader) := by
    rw [name, port, portFor_replica]
  rw [Hosts.hintUrl, same]
  rfl

end RaftCanvas
