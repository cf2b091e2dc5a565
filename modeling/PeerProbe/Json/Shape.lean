import PeerProbe.Json.Tree

/-!
# JSON of a known shape

A record with named fields may be written as an object, whose unknown members are skipped and
whose known ones may stand in any order but only once, or as an array of the fields in order, in
which trailing fields may be missing. The readers of single fields say what they accept.
-/

namespace PeerProbe.Json

/-- The trees of the named fields in an object; a repeated field or an unreadable key is
refused. -/
def namedFields? (names : List String) : List (Option String × Tree) → Option (List (Option Tree))
  | [] => some (names.map fun _ => none)
  | (key, t) :: rest => do
    let key ← key
    let later ← namedFields? names rest
    match names.idxOf? key with
    | none => some later
    | some i => if (later.getD i none).isSome then none else some (later.set i (some t))

/-- The trees of the named fields of a record. -/
def Tree.fields? (names : List String) : Tree → Option (List (Option Tree))
  | .object members => namedFields? names members
  | .array items =>
    if names.length < items.length then none
    else some (items.map some ++ List.replicate (names.length - items.length) none)
  | _ => none

/-- A field that holds a text. -/
def Tree.text? : Tree → Option String
  | .string s => s
  | _ => none

/-- A field that holds an unsigned 64-bit number. -/
def Tree.word? : Tree → Option UInt64
  | .number n =>
    match n.value? with
    | some (.integer (.ofNat m)) => some (UInt64.ofNat m)
    | _ => none
  | _ => none

/-- A field that may be missing or null. -/
def optionalField? {α : Type} (read : Tree → Option α) : Option Tree → Option (Option α)
  | none => some none
  | some .null => some none
  | some t => (read t).map some

/-- A field with a value of its own when it is missing. -/
def defaultField? {α : Type} (read : Tree → Option α) (missing : α) : Option Tree → Option α
  | none => some missing
  | some t => read t

/-- A field that must be there. -/
def requiredField? {α : Type} (read : Tree → Option α) (t : Option Tree) : Option α := t.bind read

/-- A field that holds any JSON inside one record. -/
def Tree.any? (t : Tree) : Option Value := t.value? (maxDepth - 1)

end PeerProbe.Json
