/-!
# TOML documents as data

A document is a table of items. A table remembers how it came about, because that decides what may
still be added to it: a header may complete a table that other headers merely passed through, dotted
keys may extend a table that dotted keys made, and an inline table is closed.

Values whose content no setting has a use for (floats and dates) are kept without it.
-/

namespace PeerProbe.Toml

/-- How a table came about: by a header of its own, by a longer header, by dotted keys, or in
braces. -/
inductive Origin where
  | header
  | passing
  | dotted
  | inline
  deriving DecidableEq, Repr

/-- An item of a document. -/
inductive Item where
  | string (s : String)
  | integer (n : Int)
  | float
  | boolean (b : Bool)
  | date
  | array (items : List Item)
  | table (origin : Origin) (members : List (String × Item))
  | tables (elements : List (List (String × Item)))
  deriving Inhabited

/-- The members of a table, each key once. -/
abbrev Members := List (String × Item)

namespace Members

/-- The item of a key. -/
def get? (ms : Members) (k : String) : Option Item := ms.lookup k

/-- Replace the item of a key that is there. -/
def replace (ms : Members) (k : String) (v : Item) : Members :=
  ms.map fun m => if m.1 = k then (k, v) else m

/-- Change the last of some tables. -/
def inLast (els : List Members) (f : Members → Option Members) : Option (List Members) := do
  let last ← els.getLast?
  let last ← f last
  some (els.dropLast ++ [last])

/-- Add an item under dotted keys. Tables on the way are made as needed; they may be extended only
if they came about by dotted keys, or are passed through on the way to such a table. -/
def insertDotted : List String → String → Item → Members → Option Members
  | [], k, v, ms => if (ms.get? k).isSome then none else some (ms ++ [(k, v)])
  | p :: path, k, v, ms =>
    match ms.get? p with
    | none => do
      let inner ← insertDotted path k v []
      some (ms ++ [(p, .table .dotted inner)])
    | some (.table origin inner) =>
      if origin = .dotted ∨ (origin = .passing ∧ path ≠ []) then do
        let inner ← insertDotted path k v inner
        some (ms.replace p (.table origin inner))
      else none
    | some (.tables els) =>
      if path = [] then none
      else do
        let els ← inLast els (insertDotted path k v)
        some (ms.replace p (.tables els))
    | some _ => none

/-- Do something in the table that a header's keys lead to. Tables on the way are made as needed; in
an array of tables the last one is meant. -/
def under : List String → (Members → Option Members) → Members → Option Members
  | [], f, ms => f ms
  | p :: path, f, ms =>
    match ms.get? p with
    | none => do
      let inner ← under path f []
      some (ms ++ [(p, .table .passing inner)])
    | some (.table origin inner) =>
      if origin = .inline then none
      else do
        let inner ← under path f inner
        some (ms.replace p (.table origin inner))
    | some (.tables els) => do
      let els ← inLast els (under path f)
      some (ms.replace p (.tables els))
    | some _ => none

/-- Open a table by its header's last key: a new one, or one that headers passed through. -/
def openTable (k : String) (ms : Members) : Option Members :=
  match ms.get? k with
  | none => some (ms ++ [(k, .table .header [])])
  | some (.table .passing inner) => some (ms.replace k (.table .header inner))
  | some _ => none

/-- Begin another element of an array of tables. -/
def openElement (k : String) (ms : Members) : Option Members :=
  match ms.get? k with
  | none => some (ms ++ [(k, .tables [[]])])
  | some (.tables els) => some (ms.replace k (.tables (els ++ [[]])))
  | some _ => none

end Members

end PeerProbe.Toml
