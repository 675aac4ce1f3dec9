import EdaParts.Json.Document

/-!
# Records in documents

A record is written as an object, whose members of other names are skipped, or as an array of its
fields in order. It is read into a draft, which each field fills in.

* `Presence`, `Field`, `Layout` : the fields of a record, and when each of them must be there;
* `Layout.read` : the record at the front of a text.
-/

namespace EdaParts.Json

/-- When a field must be there. -/
inductive Presence where
  /-- It may be left out. -/
  | optional
  /-- It may be left out of an object, but not of an array. -/
  | inArrays
  | always
  deriving Repr, DecidableEq

/-- A field of a record with a draft in `σ`. -/
structure Field (σ : Type) where
  name : String
  presence : Presence
  /-- Reads the field and fills it in. -/
  read : σ → Reader σ

/-- The field that a reader reads and `set` fills in. -/
def Field.of {σ α : Type} (name : String) (presence : Presence) (read : Reader α)
    (set : σ → α → σ) : Field σ :=
  ⟨name, presence, fun draft cs => (fun (a, cs) => (set draft a, cs)) <$> read cs⟩

/-- The name of a kind of record, and its fields in order. -/
structure Layout (σ : Type) where
  title : String
  fields : List (Field σ)

namespace Layout

variable {σ : Type}

/-- What is expected of an array. -/
def expectedItems (l : Layout σ) : String :=
  let count := l.fields.length
  l.title ++ s!" with {count} element" ++ (if count = 1 then "" else "s")

/-- What follows the closing bracket of an array that has an item for each field. -/
def afterItems (cs : List Char) : Except Flaw (List Char) :=
  match skipSpaces cs with
  | [] => .error (.before .endInArray [])
  | ']' :: cs => .ok cs
  | ',' :: cs =>
    match skipSpaces cs with
    | ']' :: cs => .error (.within .trailingComma (']' :: cs))
    | cs => .error (.within .trailingText cs)
  | cs => .error (.within .trailingText cs)

/-- The items of an array for the fields from the one at `index` on. -/
def itemsInto (l : Layout σ) : (index : Nat) → List (Field σ) → (draft : σ) → Reader σ
  | _, [], draft, cs => (draft, ·) <$> afterItems cs
  | index, f :: fs, draft, cs => do
    match ← nextItem (index = 0) cs with
    | some cs =>
      let (draft, cs) ← f.read draft cs
      itemsInto l (index + 1) fs draft cs
    | none =>
      if f.presence = .optional then itemsInto l (index + 1) fs draft cs
      else .error (.before (.wrongLength index l.expectedItems) (afterClosing cs))

/-- The field that must be there and is not among those seen. -/
def missing? (l : Layout σ) (seen : List String) : Option (Field σ) :=
  l.fields.find? fun f => f.presence = .always && !seen.contains f.name

/-- The members of an object, after those of the names seen. Each round takes a name, so that enough
rounds stay for a member that is skipped. -/
def membersInto (l : Layout σ) : (rounds : Nat) → (first : Bool) → (seen : List String) →
    (draft : σ) → Reader σ
  | 0, _, _, _, _ => .error (.before .endInObject [])
  | rounds + 1, first, seen, draft, cs => do
    match ← nextName first cs with
    | none =>
      match l.missing? seen with
      | some f => .error (.before (.missingField f.name) (afterClosing cs))
      | none => .ok (draft, afterClosing cs)
    | some (name, cs) =>
      match l.fields.find? (·.name = name) with
      | none => membersInto l rounds false seen draft (← skipValue rounds (← afterColon cs))
      | some f =>
        if seen.contains name then .error (.before (.repeatedField name) (passClosing cs))
        else
          let (draft, cs) ← f.read draft (← afterColon cs)
          membersInto l rounds false (name :: seen) draft cs
where
  /-- The text after blanks and the bracket that may close the object there. -/
  passClosing (cs : List Char) : List Char :=
    match skipSpaces cs with
    | '\x7d' :: cs => cs
    | cs => cs

/-- The record at the front, filled into a draft. -/
def read (l : Layout σ) (draft : σ) : Reader σ := fun cs =>
  match skipSpaces cs with
  | '[' :: cs => l.itemsInto 0 l.fields draft cs
  | '\x7b' :: cs => l.membersInto (roundsFor cs) true [] draft cs
  | cs => .error (mismatch l.title cs)

end Layout

end EdaParts.Json
