import Decillion.PyErrors
import Decillion.PyValues
import Mathlib.Data.List.Infix

/-!
Equality of JSON values in the language, and the collections that are built from them.
Numbers are equal by their value whatever their type, dictionaries without regard to the
order of their keys. An item of a collection is also equal to itself when it is not a number,
since the decoder has one object for it.
-/
namespace Decillion.PyCollections

open ByteText JsonValues PyErrors PyValues

variable {F : Type} [FloatNumber F]

def isNaN (value : Json F) : Bool :=
  match number? value with
  | some .nan => true
  | _ => false

def numbersEqual (a b : Json F) : Bool :=
  match number? a, number? b with
  | some x, some y => x.eq y
  | _, _ => false

mutual

/-- `a == b` -/
def pyEq : Json F → Json F → Bool
  | .null, .null => true
  | .str a, .str b => decide (a = b)
  | .list a, .list b => pyEqItems a b
  | .obj a, .obj b => decide (a.length = b.length) && pyEqMembers a b
  | a, b => numbersEqual a b

def pyEqItems : List (Json F) → List (Json F) → Bool
  | [], [] => true
  | a :: rest, b :: rest' => (isNaN a && isNaN b || pyEq a b) && pyEqItems rest rest'
  | _, _ => false

def pyEqMembers : Members F → Members F → Bool
  | [], _ => true
  | (key, a) :: rest, other =>
      (match other.lookup key with
        | some b => isNaN a && isNaN b || pyEq a b
        | none => false) && pyEqMembers rest other

end

/-- The comparison of two items of collections. -/
def sameItem (a b : Json F) : Bool := isNaN a && isNaN b || pyEq a b

omit [FloatNumber F] in
def isHashable : Json F → Bool
  | .list _ => false
  | .obj _ => false
  | _ => true

omit [FloatNumber F] in
/-- The items of a list, the keys of a dictionary or the characters of a text. -/
def iterate : Json F → Except PyError (List (Json F))
  | .list items => .ok items
  | .obj members => .ok (members.map (fun member => .str member.1))
  | .str text => .ok ((chars text).map (fun c => .str (String.ofList [c])))
  | _ => .error .typeError

/-- `set(value)` -/
def toSet (value : Json F) : Except PyError (List (Json F)) := do
  let items ← iterate value
  if items.all isHashable then .ok items else .error .typeError

/-- `a.issubset(b)` -/
def isSubset (a b : List (Json F)) : Bool := a.all (fun item => b.any (sameItem item))

/-- `text in value` -/
def containsText (value : Json F) (text : String) : Except PyError Bool :=
  match value with
  | .list items => .ok (items.any (fun item => equalsStr item text))
  | .obj members => .ok (members.lookup text).isSome
  | .str found => .ok (decide (chars text <:+: chars found))
  | _ => .error .typeError

/-- `members.get(key)` -/
def get (members : Members F) (key : String) : Json F := (members.lookup key).getD .null

/-- `members[key]` -/
def item (members : Members F) (key : String) : Except PyError (Json F) :=
  match members.lookup key with
  | none => .error .keyError
  | some value => .ok value

omit [FloatNumber F] in
theorem item_ok {members : Members F} {key : String} {value : Json F} :
    item members key = .ok value ↔ members.lookup key = some value := by
  unfold item
  split
  · rename_i hnone
    rw [hnone]
    constructor
    · intro h
      cases h
    · intro h
      cases h
  · rename_i found hfound
    rw [hfound, Except.ok.injEq, Option.some.injEq]

end Decillion.PyCollections
