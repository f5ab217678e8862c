import DownloadQueue.Json.Float

namespace DownloadQueue.Json

inductive Slot
  | given (value : Json)
  /-- An object without the field's key. -/
  | omitted
  /-- An array that ends before the field's position. -/
  | cut

namespace Slot

def required {α : Type} (decode : Json → Option α) : Slot → Option α
  | given value => decode value
  | _ => none

def nullable {α : Type} (decode : Json → Option α) : Json → Option (Option α)
  | .null => some none
  | value => (decode value).map some

def optional {α : Type} (decode : Json → Option α) : Slot → Option (Option α)
  | given value => nullable decode value
  | omitted => some none
  | cut => none

def defaulted {α : Type} (fallback : α) (decode : Json → Option α) : Slot → Option α
  | given value => decode value
  | _ => some fallback

end Slot

def keys? : List (Option String × Json) → Option (List String)
  | [] => some []
  | (some key, _) :: members => (keys? members).map (key :: ·)
  | (none, _) :: _ => none

def lookup? (key : String) : List (Option String × Json) → Option Json
  | [] => none
  | (k, value) :: members => if k = some key then some value else lookup? key members

/-- What the members say about the named fields; no field may be given twice. -/
def memberSlots? (names : List String) (members : List (Option String × Json)) :
    Option (List Slot) :=
  match keys? members with
  | none => none
  | some keys =>
    if names.all fun name => keys.count name ≤ 1 then
      some (names.map fun name =>
        match lookup? name members with
        | some value => .given value
        | none => .omitted)
    else none

/-- What the elements say about the named fields; there may be fewer elements, but not more. -/
def elementSlots? : List String → List Json → Option (List Slot)
  | [], [] => some []
  | [], _ :: _ => none
  | _ :: names, [] => (elementSlots? names []).map (.cut :: ·)
  | _ :: names, value :: values => (elementSlots? names values).map (.given value :: ·)

def slots? (names : List String) : Json → Option (List Slot)
  | .object members => memberSlots? names members
  | .array elements => elementSlots? names elements
  | _ => none

def elements? : Json → Option (List Json)
  | .array elements => some elements
  | _ => none

/--
The name of a variant without content. Inside a `buffered` value, one that was read whole before
its parts were looked at, an empty object is as good a content as `null`.
-/
def variantName? (buffered : Bool) : Json → Option String
  | .string text => text
  | .object [(key, .null)] => key
  | .object [(key, .object [])] => if buffered then key else none
  | _ => none

mutual

/-- The value can be read whole: texts, finite numbers, and at most `depth` levels of nesting. -/
def readable : Nat → Json → Bool
  | _, .null => true
  | _, .bool _ => true
  | _, .number n => n.toFloat?.isSome
  | _, .string text => text.isSome
  | 0, .array _ => false
  | depth + 1, .array elements => readableElements depth elements
  | 0, .object _ => false
  | depth + 1, .object members => readableMembers depth members

def readableElements : Nat → List Json → Bool
  | _, [] => true
  | depth, value :: values => readable depth value && readableElements depth values

def readableMembers : Nat → List (Option String × Json) → Bool
  | _, [] => true
  | depth, (key, value) :: members =>
    key.isSome && readable depth value && readableMembers depth members

end

def nestingLimit : Nat := 127

end DownloadQueue.Json
