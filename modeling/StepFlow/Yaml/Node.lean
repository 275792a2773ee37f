import StepFlow.Yaml.Token

/-!
# From tokens to nodes

Collections are read by recursion on their items and entries. What is missing (the value of a key,
the node behind a dash or behind a tag) is the node where nothing is written. Every call that reads
on behind a token takes it, and between two tokens there are at most two calls, so the number of
tokens bounds the depth.

An anchor counts as known from its node on. It has the number of names known before it, so that a
name that is used again gets a new number.
-/

namespace StepFlow.Yaml

/-- What is left to read, and the anchors known so far with their numbers. -/
structure Unread where
  tokens : List Token
  anchors : List (List Char × Nat)

namespace Unread

def skip (u : Unread) : Unread := { u with tokens := u.tokens.drop 1 }

/-- Names a node, whose number is returned. -/
def define (u : Unread) (name : List Char) : Nat × Unread :=
  let number := u.anchors.length
  (number, { u with anchors := (name, number) :: u.anchors.filter (·.1 ≠ name) })

/-- What stands before a node: an anchor, a tag, or both in any order. -/
def marks? (handles : Handles) (u : Unread) : Option (Marks × Unread) := do
  match u.tokens with
  | .anchor name :: .tag t :: _ =>
    let tag ← t.resolve? handles
    let (number, u) := u.skip.skip.define name
    some (⟨Tag.ofOctets tag, number⟩, u)
  | .tag t :: .anchor name :: _ =>
    let tag ← t.resolve? handles
    let (number, u) := u.skip.skip.define name
    some (⟨Tag.ofOctets tag, number⟩, u)
  | .anchor name :: _ =>
    let (number, u) := u.skip.define name
    some (⟨none, number⟩, u)
  | .tag t :: _ =>
    let tag ← t.resolve? handles
    some (⟨Tag.ofOctets tag, none⟩, u.skip)
  | _ => some (.empty, u)

end Unread

/-- The marks of a scalar that is written: a tag that is an exclamation mark alone
says nothing about it. -/
def Marks.ofScalar (m : Marks) : Marks :=
  if m.tag = some (.named "!") then { m with tag := none } else m

/-- Where a node stands. -/
inductive Position where
  /-- In flow style. -/
  | flow
  /-- In block style. -/
  | block
  /-- As a key or value of a block mapping, where the items of a sequence need not be indented. -/
  | entry
deriving DecidableEq, Repr

mutual

def node? (handles : Handles) : Nat → Position → Unread → Option (Yaml × Unread)
  | 0, _, _ => none
  | fuel + 1, position, u =>
    match u.tokens with
    | .reference name :: _ => do
      let number ← u.anchors.lookup name
      some (.reference number, u.skip)
    | _ => do
      let (marks, u) ← u.marks? handles
      match u.tokens with
      | .scalar style text :: _ => some (.scalar marks.ofScalar style text, u.skip)
      | .flowSequence :: _ => flowItems? handles fuel marks [] u.skip
      | .flowMapping :: _ => flowEntries? handles fuel marks [] u.skip
      | t :: _ =>
        match position, t with
        | .entry, .item => looseItems? handles fuel marks [] u
        | .block, .blockSequence | .entry, .blockSequence =>
          blockItems? handles fuel marks [] u.skip
        | .block, .blockMapping | .entry, .blockMapping =>
          blockEntries? handles fuel marks [] u.skip
        | _, _ => if marks = .empty then none else some (.scalar marks .plain "", u)
      | [] => if marks = .empty then none else some (.scalar marks .plain "", u)

/-- Reads the items of an indented sequence, the earlier ones being at hand in reverse. -/
def blockItems? (handles : Handles) : Nat → Marks → List Yaml → Unread → Option (Yaml × Unread)
  | 0, _, _, _ => none
  | fuel + 1, marks, items, u =>
    match u.tokens with
    | .item :: .item :: _ | .item :: .blockEnd :: _ =>
      blockItems? handles fuel marks (nothing :: items) u.skip
    | .item :: _ => do
      let (item, u) ← node? handles fuel .block u.skip
      blockItems? handles fuel marks (item :: items) u
    | .blockEnd :: _ => some (.sequence marks items.reverse, u.skip)
    | _ => none

/-- Reads the items of a sequence that stands as far left as its key. -/
def looseItems? (handles : Handles) : Nat → Marks → List Yaml → Unread → Option (Yaml × Unread)
  | 0, _, _, _ => none
  | fuel + 1, marks, items, u =>
    match u.tokens with
    | .item :: .item :: _ | .item :: .key :: _ | .item :: .value :: _ | .item :: .blockEnd :: _ =>
      looseItems? handles fuel marks (nothing :: items) u.skip
    | .item :: _ => do
      let (item, u) ← node? handles fuel .block u.skip
      looseItems? handles fuel marks (item :: items) u
    | _ => some (.sequence marks items.reverse, u)

/-- Reads the entries of a block mapping, the earlier ones being at hand in reverse. -/
def blockEntries? (handles : Handles) :
    Nat → Marks → List (Yaml × Yaml) → Unread → Option (Yaml × Unread)
  | 0, _, _, _ => none
  | fuel + 1, marks, entries, u =>
    match u.tokens with
    | .key :: _ => do
      let (key, u) ← blockPart? handles fuel u.skip
      let (value, u) ←
        match u.tokens with
        | .value :: _ => blockPart? handles fuel u.skip
        | _ => some (nothing, u)
      blockEntries? handles fuel marks ((key, value) :: entries) u
    | .blockEnd :: _ => some (.mapping marks entries.reverse, u.skip)
    | _ => none

/-- Reads a key or a value of a block mapping, possibly nothing. -/
def blockPart? (handles : Handles) : Nat → Unread → Option (Yaml × Unread)
  | 0, _ => none
  | fuel + 1, u =>
    match u.tokens with
    | .key :: _ | .value :: _ | .blockEnd :: _ => some (nothing, u)
    | _ => node? handles fuel .entry u

/-- Reads the items of a sequence in flow style, the earlier ones being at hand in reverse. -/
def flowItems? (handles : Handles) : Nat → Marks → List Yaml → Unread → Option (Yaml × Unread)
  | 0, _, _, _ => none
  | fuel + 1, marks, items, u =>
    match u.tokens with
    | .flowSequenceEnd :: _ => some (.sequence marks items.reverse, u.skip)
    | _ => do
      let (item, u) ←
        match u.tokens with
        | .key :: _ => flowPair? handles fuel u.skip
        | _ => node? handles fuel .flow u
      match u.tokens with
      | .comma :: _ => flowItems? handles fuel marks (item :: items) u.skip
      | .flowSequenceEnd :: _ => some (.sequence marks (item :: items).reverse, u.skip)
      | _ => none

/-- Reads an item of a sequence that is a key with its value. Where the key is missing, the token in
its place is passed over, be it the colon or what ends the item. -/
def flowPair? (handles : Handles) : Nat → Unread → Option (Yaml × Unread)
  | 0, _ => none
  | fuel + 1, u => do
    let (key, u) ←
      match u.tokens with
      | .value :: _ | .comma :: _ | .flowSequenceEnd :: _ => some (nothing, u.skip)
      | _ => node? handles fuel .flow u
    let (value, u) ← flowValue? handles fuel u
    some (.mapping .empty [(key, value)], u)

/-- Reads the entries of a mapping in flow style, the earlier ones being at hand in reverse. -/
def flowEntries? (handles : Handles) :
    Nat → Marks → List (Yaml × Yaml) → Unread → Option (Yaml × Unread)
  | 0, _, _, _ => none
  | fuel + 1, marks, entries, u =>
    match u.tokens with
    | .flowMappingEnd :: _ => some (.mapping marks entries.reverse, u.skip)
    | _ => do
      let (entry, u) ←
        match u.tokens with
        | .key :: .value :: _ | .key :: .comma :: _ | .key :: .flowMappingEnd :: _ => do
          let (value, u) ← flowValue? handles fuel u.skip
          pure ((nothing, value), u)
        | .key :: _ => do
          let (key, u) ← node? handles fuel .flow u.skip
          let (value, u) ← flowValue? handles fuel u
          pure ((key, value), u)
        | _ => do
          let (key, u) ← node? handles fuel .flow u
          pure ((key, nothing), u)
      match u.tokens with
      | .comma :: _ => flowEntries? handles fuel marks (entry :: entries) u.skip
      | .flowMappingEnd :: _ => some (.mapping marks (entry :: entries).reverse, u.skip)
      | _ => none

/-- Reads the colon and the value of a key in flow style, either of which may be missing. -/
def flowValue? (handles : Handles) : Nat → Unread → Option (Yaml × Unread)
  | 0, _ => none
  | fuel + 1, u =>
    match u.tokens with
    | .value :: .comma :: _ | .value :: .flowSequenceEnd :: _ | .value :: .flowMappingEnd :: _ =>
      some (nothing, u.skip)
    | .value :: _ => node? handles fuel .flow u.skip
    | _ => some (nothing, u)

end

end StepFlow.Yaml
