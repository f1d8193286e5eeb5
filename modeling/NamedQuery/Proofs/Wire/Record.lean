import NamedQuery.Proofs.Wire.Field

/-!
# Records

A message is a run of records, each of them a content behind its key. They come in any order, a
field may be there any number of times, numbers and lengths may have superfluous groups, and between
the known fields there may be others. This is the language of the messages, said without a reader.

* `Unknown`, `Record`: what the records of a message can be.
* `Unknown.Spells`, `Record.Spells`: which bytes are such records.
* `Unknown.levels`, `Record.levels`: how many levels a reader needs for them. A child takes a level,
  and so does a field that has to be passed over.
* `Record.message`: the node that records stand for. Only the last discriminant and the last payload
  count, all children do, and unknown fields do not.
-/

namespace NamedQuery.Wire

/-! ## Unknown fields -/

/-- A field that nobody knows. -/
inductive Unknown where
  | varint (field n : Nat)
  | sixtyFourBit (field : Nat) (raw : List UInt8)
  | lengthDelimited (field : Nat) (raw : List UInt8)
  | thirtyTwoBit (field : Nat) (raw : List UInt8)
  | group (field : Nat) (fields : List Unknown)

namespace Unknown

/-- The key of an unknown field. -/
def key : Unknown → Key
  | varint field _ => ⟨field, .varint⟩
  | sixtyFourBit field _ => ⟨field, .sixtyFourBit⟩
  | lengthDelimited field _ => ⟨field, .lengthDelimited⟩
  | thirtyTwoBit field _ => ⟨field, .thirtyTwoBit⟩
  | group field _ => ⟨field, .startGroup⟩

mutual

/-- `bytes` are what stands behind the key of an unknown field. -/
inductive Spells : (bytes : List UInt8) → Unknown → Prop where
  | varint {bytes : List UInt8} {field n : Nat} :
      Varint.Spells bytes n → Spells bytes (.varint field n)
  | sixtyFourBit {raw : List UInt8} {field : Nat} :
      raw.length = 8 → Spells raw (.sixtyFourBit field raw)
  | lengthDelimited {bytes raw : List UInt8} {field : Nat} :
      Delimits bytes raw → Spells bytes (.lengthDelimited field raw)
  | thirtyTwoBit {raw : List UInt8} {field : Nat} :
      raw.length = 4 → Spells raw (.thirtyTwoBit field raw)
  | group {bytes last : List UInt8} {field : Nat} {us : List Unknown} :
      SpellsAll bytes us → Key.Spells last ⟨field, .endGroup⟩ →
      Spells (bytes ++ last) (.group field us)

/-- `bytes` are unknown fields, one behind the other. -/
inductive SpellsAll : (bytes : List UInt8) → List Unknown → Prop where
  | nil : SpellsAll [] []
  | cons {key content bytes : List UInt8} {u : Unknown} {us : List Unknown} :
      Key.Spells key u.key → Spells content u → SpellsAll bytes us →
      SpellsAll (key ++ content ++ bytes) (u :: us)

end

mutual

/-- How many levels it takes to pass over an unknown field. -/
def levels : Unknown → Nat
  | group _ us => 1 + levelsAll us
  | _ => 1

/-- How many levels it takes to pass over unknown fields. -/
def levelsAll : List Unknown → Nat
  | [] => 0
  | u :: us => max (levels u) (levelsAll us)

end

theorem levels_pos (u : Unknown) : 0 < u.levels := by
  cases u with
  | group field us =>
    rw [levels]
    omega
  | _ => exact Nat.one_pos

theorem levelsAll_le_iff {l : Nat} {us : List Unknown} :
    levelsAll us ≤ l ↔ ∀ u ∈ us, u.levels ≤ l := by
  induction us with
  | nil => simp [levelsAll]
  | cons u us ih => rw [levelsAll, Nat.max_le, ih, List.forall_mem_cons]

theorem key_ne_endGroup (u : Unknown) : u.key.wireType ≠ .endGroup := by
  cases u <;> simp [key]

end Unknown

/-! ## Records of a node -/

/-- A record of the message of a node. -/
inductive Record where
  | discriminant (n : Nat)
  | bool (n : Nat)
  | uint64 (n : Nat)
  | bytes (raw : List UInt8)
  | child (records : List Record)
  | unknown (u : Unknown)

namespace Record

/-- The numbers of the fields that are known. -/
def knownFields : List Nat := [1, 2, 3, 4, 8]

/-- The key of a record. -/
def key : Record → Key
  | discriminant _ => ⟨1, .varint⟩
  | bool _ => ⟨2, .varint⟩
  | uint64 _ => ⟨3, .varint⟩
  | bytes _ => ⟨4, .lengthDelimited⟩
  | child _ => ⟨8, .lengthDelimited⟩
  | unknown u => u.key

mutual

/-- `bytes` are what stands behind the key of a record. -/
inductive Spells : (bytes : List UInt8) → Record → Prop where
  | discriminant {bytes : List UInt8} {n : Nat} :
      Varint.Spells bytes n → Spells bytes (.discriminant n)
  | bool {bytes : List UInt8} {n : Nat} : Varint.Spells bytes n → Spells bytes (.bool n)
  | uint64 {bytes : List UInt8} {n : Nat} : Varint.Spells bytes n → Spells bytes (.uint64 n)
  | bytes {bytes raw : List UInt8} : Delimits bytes raw → Spells bytes (.bytes raw)
  | child {bytes message : List UInt8} {rs : List Record} :
      Delimits bytes message → SpellsAll message rs → Spells bytes (.child rs)
  | unknown {bytes : List UInt8} {u : Unknown} :
      u.key.field ∉ knownFields → u.Spells bytes → Spells bytes (.unknown u)

/-- `bytes` are records, one behind the other. -/
inductive SpellsAll : (bytes : List UInt8) → List Record → Prop where
  | nil : SpellsAll [] []
  | cons {key content bytes : List UInt8} {r : Record} {rs : List Record} :
      Key.Spells key r.key → Spells content r → SpellsAll bytes rs →
      SpellsAll (key ++ content ++ bytes) (r :: rs)

end

mutual

/-- How many levels below its message a record needs. -/
def levels : Record → Nat
  | child rs => 1 + levelsAll rs
  | unknown u => u.levels
  | _ => 0

/-- How many levels below their message records need. -/
def levelsAll : List Record → Nat
  | [] => 0
  | r :: rs => max (levels r) (levelsAll rs)

end

theorem levelsAll_le_iff {l : Nat} {rs : List Record} :
    levelsAll rs ≤ l ↔ ∀ r ∈ rs, r.levels ≤ l := by
  induction rs with
  | nil => simp [levelsAll]
  | cons r rs ih => rw [levelsAll, Nat.max_le, ih, List.forall_mem_cons]

/-- Messages one behind the other are a message. -/
theorem SpellsAll.append {bytes bytes' : List UInt8} {rs rs' : List Record}
    (h : SpellsAll bytes rs) (h' : SpellsAll bytes' rs') :
    SpellsAll (bytes ++ bytes') (rs ++ rs') := by
  induction rs generalizing bytes with
  | nil =>
    cases h
    exact h'
  | cons r rs ih =>
    cases h with
    | cons hkey hcontent hrs =>
      rw [List.append_assoc]
      exact .cons hkey hcontent (ih hrs)

/-! ### What records stand for -/

/-- The number of a discriminant. -/
def discriminant? : Record → Option Nat
  | discriminant n => some n
  | _ => none

/-- The payload that a record gives. -/
def payload? : Record → Option Payload
  | bool n => some (.bool (n != 0))
  | uint64 n => some (.uint64 (UInt64.ofNat n))
  | bytes raw => some (.bytes raw)
  | _ => none

/-- The records of a child. -/
def child? : Record → Option (List Record)
  | child rs => some rs
  | _ => none

/-- The last discriminant, as a signed number of 32 bits, or zero. -/
def lastDiscriminant (rs : List Record) : Int32 :=
  ((rs.filterMap discriminant?).getLast?.map Int32.ofNat).getD 0

/-- The last payload, of whatever kind. -/
def lastPayload (rs : List Record) : Option Payload := (rs.filterMap payload?).getLast?

mutual

/-- The node that a record adds to the children. -/
def node? : Record → Option Node
  | child rs => some ⟨lastDiscriminant rs, lastPayload rs, nodes rs⟩
  | _ => none

/-- The nodes that records add to the children, in order. -/
def nodes : List Record → List Node
  | [] => []
  | r :: rs => (node? r).toList ++ nodes rs

end

/-- The node that records stand for. -/
def message (rs : List Record) : Node := ⟨lastDiscriminant rs, lastPayload rs, nodes rs⟩

theorem nodes_eq_map (rs : List Record) : nodes rs = (rs.filterMap child?).map message := by
  induction rs with
  | nil => rfl
  | cons r rs ih =>
    rw [nodes, ih]
    cases r <;> rfl

end Record

end NamedQuery.Wire
