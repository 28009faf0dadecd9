import SdpRelay.ProblemFile.Reader

namespace SdpRelay

/-!
# Shapes of records

A record of a file has named fields. It is written as members in braces, in any
order and with unknown members between them, or as a list of the values in the
order of the fields. While a record is read, a draft holds the fields seen so far.
-/

/-- A field of a record that is read into a draft of type `δ`. -/
structure RecordField (δ : Type) where
  key : String
  /-- The draft has the field already. -/
  given : δ → Bool
  /-- Take the value of the field. -/
  read : δ → Reader δ

/-- A record of type `β` with drafts of type `δ`. -/
structure Shape (δ β : Type) where
  start : δ
  fields : List (RecordField δ)
  /-- A list of values may end before all fields have one. -/
  mayEnd : Bool
  /-- The record of a draft, unless a field is missing. -/
  complete : δ → Option β

namespace Shape

open Reader

variable {δ β : Type}

/-- Take one member: a field that the draft does not have yet, or one that is unknown. -/
def member
    (shape : Shape δ β)
    (draft : δ) :
    Reader δ := do
  let key ← quoted true
  match shape.fields.find? (fun field => field.key == key) with
  | none =>
      mark ':'
      skipValue
      return draft
  | some field =>
      if field.given draft then
        throw .invalid
      else
        mark ':'
        field.read draft

/-- Take values for fields in order, and the mark that closes the list. -/
def listed
    (mayEnd : Bool) :
    List (RecordField δ) → Bool → δ → Reader δ
  | [], _, draft => do
      mark ']'
      return draft
  | field :: rest, first, draft => do
      if ← another ']' first then
        listed mayEnd rest false (← field.read draft)
      else if mayEnd then
        mark ']'
        return draft
      else
        throw .invalid

/-- Take a record. -/
def read (shape : Shape δ β) : Reader β := do
  let draft ←
    match ← peek with
    | '{' =>
        dropOne
        allItems '}' shape.member shape.start
    | '[' =>
        dropOne
        listed shape.mayEnd shape.fields true shape.start
    | _ => mismatch
  match shape.complete draft with
  | some record => return record
  | none => throw .invalid

end Shape

end SdpRelay
