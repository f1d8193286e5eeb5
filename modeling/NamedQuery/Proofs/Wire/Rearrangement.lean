import Mathlib.Logic.Relation
import NamedQuery.Client.Cursor
import NamedQuery.Proofs.Wire.RecordReading

/-!
# Records change places

What is read of a message depends on the records of the known fields alone, and on their order only
within the three parts of a node: its discriminant, its payload and its children. Whoever sends
further fields, or the same ones in another order, is understood as before.

* `Record.Part`, `Record.about`: the parts of a node, and the records that a part is made of.
* `Record.Move`: fields that nobody knows come in, and records change places, at any level.
* `message_eq_of_eqvGen`: messages that differ by such moves stand for the same node.
* `decode_records`: what is read of a message, and of all those that it can be moved into.

A field that has to be passed over needs a level, like a child. So in a message at the last level of
the reader there may be none.
-/

namespace NamedQuery.Wire

namespace Record

/-- The parts of a node. -/
inductive Part where
  | discriminant | payload | children
  deriving DecidableEq, Repr

/-- The part that a record is about, if its field is known. -/
def part? : Record → Option Part
  | discriminant _ => some .discriminant
  | bool _ | uint64 _ | bytes _ => some .payload
  | child _ => some .children
  | unknown _ => none

/-- The records about one part, in order. -/
def about (part : Part) (rs : List Record) : List Record := rs.filter fun r => r.part? = some part

/-- A change that makes no difference to the node. -/
inductive Move : List Record → List Record → Prop where
  /-- A field that nobody knows comes in. -/
  | insert (rs rs' : List Record) (u : Unknown) : Move (rs ++ rs') (rs ++ unknown u :: rs')
  /-- Records change places, but not with records about the same part. -/
  | reorder {rs rs' : List Record} :
      rs.Perm rs' → (∀ part, about part rs = about part rs') → Move rs rs'
  /-- The records of a child change. -/
  | inside (rs rs' : List Record) {cs cs' : List Record} :
      Move cs cs' → Move (rs ++ child cs :: rs') (rs ++ child cs' :: rs')

/-- What only records about one part give can be found among these. -/
theorem filterMap_about {α : Type} {part : Part} {f : Record → Option α}
    (hf : ∀ r, r.part? ≠ some part → f r = none) (rs : List Record) :
    (about part rs).filterMap f = rs.filterMap f := by
  rw [about, List.filterMap_filter]
  congr 1
  funext r
  by_cases hr : r.part? = some part
  · simp [hr]
  · simp [hr, hf r hr]

theorem message_eq_of_about {rs rs' : List Record}
    (h : ∀ part, about part rs = about part rs') : message rs = message rs' := by
  have hsame {α : Type} (part : Part) (f : Record → Option α)
      (hf : ∀ r, r.part? ≠ some part → f r = none) : rs.filterMap f = rs'.filterMap f := by
    rw [← filterMap_about hf rs, h part, filterMap_about hf rs']
  have hdiscriminant : rs.filterMap discriminant? = rs'.filterMap discriminant? :=
    hsame .discriminant _ fun r hr => by cases r <;> simp [part?, discriminant?] at hr ⊢
  have hpayload : rs.filterMap payload? = rs'.filterMap payload? :=
    hsame .payload _ fun r hr => by cases r <;> simp [part?, payload?] at hr ⊢
  have hchildren : rs.filterMap child? = rs'.filterMap child? :=
    hsame .children _ fun r hr => by cases r <;> simp [part?, child?] at hr ⊢
  simp only [message, lastDiscriminant, lastPayload, nodes_eq_map, hdiscriminant, hpayload,
    hchildren]

theorem message_append_child (rs rs' cs : List Record) :
    message (rs ++ child cs :: rs') = ⟨lastDiscriminant (rs ++ rs'), lastPayload (rs ++ rs'),
      nodes rs ++ message cs :: nodes rs'⟩ := by
  simp [message, lastDiscriminant, lastPayload, nodes_eq_map, discriminant?, payload?, child?]

theorem message_eq_of_move {rs rs' : List Record} (h : Move rs rs') : message rs = message rs' := by
  induction h with
  | insert rs rs' u =>
    refine message_eq_of_about fun part => ?_
    simp [about, part?]
  | reorder _ h => exact message_eq_of_about h
  | inside rs rs' _ ih => rw [message_append_child, message_append_child, ih]

/-- Moves in either direction, one after the other, make no difference. -/
theorem message_eq_of_eqvGen {rs rs' : List Record} (h : Relation.EqvGen Move rs rs') :
    message rs = message rs' := by
  induction h with
  | rel rs rs' h => exact message_eq_of_move h
  | refl rs => rfl
  | symm rs rs' _ ih => exact ih.symm
  | trans rs rs' rs'' _ _ ih ih' => exact ih.trans ih'

end Record

namespace Node

/-- **Only the known fields count.** Any records are read as the node that they stand for, provided
that the children and the fields that are passed over are at most a hundred levels deep. Any other
message with the same known fields, in the same order for each part of the node, is read alike
then, and so is the value in it. Deeper messages are not read. -/
theorem decode_records {rs : List Record} {bytes : List UInt8} (h : Record.SpellsAll bytes rs) :
    (Record.levelsAll rs ≤ 100 →
      decode bytes = .ok (Record.message rs) ∧
      ∀ {rs' : List Record} {bytes' : List UInt8}, Record.SpellsAll bytes' rs' →
        Relation.EqvGen Record.Move rs rs' → Record.levelsAll rs' ≤ 100 →
          decode bytes' = .ok (Record.message rs) ∧ readElement bytes' = readElement bytes) ∧
    (100 < Record.levelsAll rs → ∃ e, decode bytes = .error e) := by
  obtain ⟨hread, hfail⟩ := decode_of_spells h
  constructor
  · intro hlevels
    refine ⟨hread hlevels, ?_⟩
    intro rs' bytes' h' hmoves hlevels'
    have hread' : decode bytes' = .ok (Record.message rs) := by
      rw [Record.message_eq_of_eqvGen hmoves]
      exact (decode_of_spells h').1 hlevels'
    refine ⟨hread', ?_⟩
    rw [readElement, readElement, hread', hread hlevels]
  · intro hdeep
    exact hfail (Nat.not_le.mpr hdeep)

/-- A number with a superfluous group, two discriminants and two payloads; then the child is sent
first, with a field of its own that nobody knows. -/
theorem decode_records_moved :
    let before : List UInt8 := [0x08, 0x85, 0x00, 0x22, 0x01, 0xFF]
    let behind : List UInt8 := [0x18, 0x07, 0x08, 0x06]
    let bytes : List UInt8 := before ++ ([0x42, 0x02, 0x10, 0x02] ++ behind)
    let bytes' : List UInt8 := [0x42, 0x04, 0x48, 0x03, 0x10, 0x02] ++ (before ++ behind)
    let node : Node := ⟨6, some (.uint64 7), [⟨0, some (.bool true), []⟩]⟩
    decode bytes = .ok node ∧ decode bytes' = .ok node ∧
      readElement bytes' = readElement bytes := by
  intro _ _ bytes bytes' node
  let before : List Record := [.discriminant 5, .bytes [0xFF]]
  let behind : List Record := [.uint64 7, .discriminant 6]
  let child : Record := .child [.bool 2]
  let child' : Record := .child [.unknown (.varint 9 3), .bool 2]
  have hdiscriminant : Key.Spells [0x08] ⟨1, .varint⟩ := by decide
  have hchildren : Key.Spells [0x42] ⟨8, .lengthDelimited⟩ := by decide
  have hbefore : Record.SpellsAll [0x08, 0x85, 0x00, 0x22, 0x01, 0xFF] before :=
    .cons hdiscriminant (.discriminant (show Varint.Spells [0x85, 0x00] 5 by decide)) <|
    .cons (show Key.Spells [0x22] ⟨4, .lengthDelimited⟩ by decide)
      (.bytes (show Delimits [0x01, 0xFF] [0xFF] from ⟨[0x01], by decide, rfl⟩)) .nil
  have hbehind : Record.SpellsAll [0x18, 0x07, 0x08, 0x06] behind :=
    .cons (show Key.Spells [0x18] ⟨3, .varint⟩ by decide)
      (.uint64 (show Varint.Spells [0x07] 7 by decide)) <|
    .cons hdiscriminant (.discriminant (show Varint.Spells [0x06] 6 by decide)) .nil
  have hflag : Record.SpellsAll [0x10, 0x02] [.bool 2] :=
    .cons (show Key.Spells [0x10] ⟨2, .varint⟩ by decide)
      (.bool (show Varint.Spells [0x02] 2 by decide)) .nil
  have hflag' : Record.SpellsAll [0x48, 0x03, 0x10, 0x02] [.unknown (.varint 9 3), .bool 2] :=
    .cons (show Key.Spells [0x48] ⟨9, .varint⟩ by decide)
      (.unknown (by decide) (.varint (show Varint.Spells [0x03] 3 by decide))) hflag
  have hchild : Record.SpellsAll [0x42, 0x02, 0x10, 0x02] [child] :=
    .cons hchildren
      (.child (show Delimits [0x02, 0x10, 0x02] _ from ⟨[0x02], by decide, rfl⟩) hflag) .nil
  have hchild' : Record.SpellsAll [0x42, 0x04, 0x48, 0x03, 0x10, 0x02] [child'] :=
    .cons hchildren
      (.child (show Delimits [0x04, 0x48, 0x03, 0x10, 0x02] _ from ⟨[0x04], by decide, rfl⟩)
        hflag') .nil
  have hspells : Record.SpellsAll bytes (before ++ child :: behind) :=
    hbefore.append (hchild.append hbehind)
  have hspells' : Record.SpellsAll bytes' (child' :: (before ++ behind)) :=
    hchild'.append (hbefore.append hbehind)
  have hinside : Record.Move (before ++ child :: behind) (before ++ child' :: behind) :=
    .inside before behind (.insert [] [.bool 2] (.varint 9 3))
  have hreorder : Record.Move (before ++ child' :: behind) (child' :: (before ++ behind)) :=
    .reorder List.perm_middle fun part => by cases part <;> rfl
  have hmoves := Relation.EqvGen.trans _ _ _ (.rel _ _ hinside) (.rel _ _ hreorder)
  obtain ⟨hread, hmoved⟩ := (decode_records hspells).1 (by decide)
  exact ⟨hread, hmoved hspells' hmoves (by decide)⟩

/-! ### The last level -/

/-- `n` children, each inside of the one before, and in the last one a field that nobody knows. -/
def nestedRecords : Nat → List Record
  | 0 => [.unknown (.varint 5 0)]
  | n + 1 => [.child (nestedRecords n)]

/-- The bytes of `n` children, each inside of the one before, and of the field in the last one. -/
def nestedBytes : Nat → List UInt8
  | 0 => [0x28, 0x00]
  | n + 1 => 0x42 :: delimited (nestedBytes n)

variable {n : Nat}

theorem length_nestedBytes_lt (n : Nat) : (nestedBytes n).length < (nestedBytes (n + 1)).length := by
  simp only [nestedBytes, delimited, List.length_cons, List.length_append]
  omega

theorem spellsAll_nestedBytes (h : (nestedBytes n).length < UInt64.size) :
    Record.SpellsAll (nestedBytes n) (nestedRecords n) := by
  induction n with
  | zero =>
    have hnumber : Varint.Spells [0x00] 0 := by decide
    exact .cons (show Key.Spells [0x28] ⟨5, .varint⟩ by decide)
      (.unknown (by decide) (.varint hnumber)) .nil
  | succ n ih =>
    have hlength := Nat.lt_trans (length_nestedBytes_lt n) h
    have hall : Record.SpellsAll ([0x42] ++ delimited (nestedBytes n) ++ [])
        (nestedRecords (n + 1)) :=
      .cons (show Key.Spells [0x42] ⟨8, .lengthDelimited⟩ by decide)
        (.child (delimits_delimited hlength) (ih hlength)) .nil
    rwa [List.append_nil] at hall

theorem levelsAll_nestedRecords (n : Nat) : Record.levelsAll (nestedRecords n) = n + 1 := by
  induction n with
  | zero => rfl
  | succ n ih =>
    simp only [nestedRecords, Record.levelsAll, Record.levels, ih]
    omega

theorem depth_message_nestedRecords (n : Nat) :
    (Record.message (nestedRecords n)).depth = n := by
  induction n with
  | zero => rfl
  | succ n ih =>
    show max (1 + (Record.message (nestedRecords n)).depth) 0 = n + 1
    omega

/-- Nothing that nobody knows can be passed over a hundred levels down. -/
theorem decode_nestedBytes_eq_error :
    Record.SpellsAll (nestedBytes 100) (nestedRecords 100) ∧
      (Record.message (nestedRecords 100)).depth = 100 ∧
      ∃ e, decode (nestedBytes 100) = .error e := by
  have hlength : (nestedBytes 100).length < UInt64.size := by decide_cbv
  have hspells := spellsAll_nestedBytes hlength
  refine ⟨hspells, depth_message_nestedRecords 100, (decode_of_spells hspells).2 ?_⟩
  rw [levelsAll_nestedRecords]
  decide

end Node

end NamedQuery.Wire
