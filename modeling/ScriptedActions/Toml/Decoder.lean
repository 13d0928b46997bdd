import ScriptedActions.Toml.Document

/-!
# Decoding TOML

What a program expects of the values of a document: texts, numbers, lists, records with a value
for every field that is missing. A decoder that is disappointed names the offset at which the
value starts, if it stands in one place.
-/

set_option autoImplicit false

namespace ScriptedActions.Toml

/-- Decodes a value, or gives the offset of the fault. -/
abbrev Decoder (α : Type) := Value → Except (Option Nat) α

namespace Decoder

variable {α ρ : Type}

/-- The decoder with the start of the value as the fault's offset, where no other is known. -/
def located (d : Decoder α) : Decoder α := fun v =>
  (d v).mapError fun place => place.or v.start?

/-- A text. -/
def text : Decoder String := located fun
  | .text s _ => .ok s
  | _ => .error none

/-- An integer that is not negative. -/
def nat : Decoder Nat := located fun
  | .integer n _ => if 0 ≤ n then .ok n.toNat else .error none
  | _ => .error none

/-- A truth value. -/
def bool : Decoder Bool := located fun
  | .bool b _ => .ok b
  | _ => .error none

/-- A list. -/
def list (item : Decoder α) : Decoder (List α) := located fun
  | .array items _ | .tables items => items.mapM item
  | _ => .error none

/-- What a decoder decodes; that there may be none is for the record to say. -/
def some' (d : Decoder α) : Decoder (Option α) := fun v => (d v).map some

/-- Whether a value can stand where nothing is to be said. -/
def isEmpty : Value → Bool
  | .array [] _ | .inline [] _ | .table _ _ _ [] | .tables [] => true
  | _ => false

/-- One of some names: as a text, or as the only key of a table with nothing to it. -/
def variant (cases : List (String × α)) : Decoder α :=
  let ofTable (ms : Members) : Except (Option Nat) α :=
    match ms with
    | [] => .error none
    | (k, v) :: _ =>
      match cases.lookup k.name with
      | none => .error (some k.start)
      | some a => if isEmpty v then .ok a else .error v.start?
  located fun
  | .text s _ => (cases.lookup s).elim (.error none) .ok
  | .inline ms _ | .table true true _ ms => if ms.length = 1 then ofTable ms else .error none
  | .table _ _ _ ms => ofTable ms
  | _ => .error none

/-- A field of a record: its name, and how a value changes the record. -/
structure Field (ρ : Type) where
  name : String
  assign : Value → ρ → Except (Option Nat) ρ

/-- A field that is decoded and then set. -/
def field (name : String) (d : Decoder α) (assign : α → ρ → ρ) : Field ρ :=
  ⟨name, fun v r => (d v).map (assign · r)⟩

/-- A record with fields that keep what they have if they are missing. Members that are no field
are passed over; a list gives the fields in their order. -/
def record (missing : ρ) (fields : List (Field ρ)) : Decoder ρ :=
  let member (r : ρ) (m : Key × Value) : Except (Option Nat) ρ :=
    match fields.find? (·.name == m.1.name) with
    | some f => (f.assign m.2 r).mapError fun place => place.or (some m.1.start)
    | none => .ok r
  located fun
  | .inline ms _ | .table _ _ _ ms => ms.foldlM member missing
  | .array items _ | .tables items =>
    (fields.zip items).foldlM (fun r (f, v) => f.assign v r) missing
  | .date _ => .ok missing
  | _ => .error none

end Decoder

/-- Decodes the root table of a document. -/
def decode {α : Type} (d : Decoder α) (text : String) : Except DocumentError α := do
  let ms ← Document.read text
  (d (.table false false (some 0) ms)).mapError (.atOffset text)

end ScriptedActions.Toml
