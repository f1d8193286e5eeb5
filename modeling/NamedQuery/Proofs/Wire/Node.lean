import NamedQuery.Proofs.Wire.Field

/-!
# Nodes are read back

A node is read back from its bytes exactly if each length in them fits 64 bits and the nesting does
not go below the levels of the reader.

* `passes_encode`: the fields of one node, for any reader of its children.
* `finds_readNested`: a node behind its length, by induction on the levels that are left.
* `decode_encode`: a node as a message of its own.
-/

namespace NamedQuery.Wire.Node

mutual

theorem induction {motive : Node → Prop}
    (mk : ∀ t p cs, (∀ c ∈ cs, motive c) → motive ⟨t, p, cs⟩) : ∀ w, motive w
  | ⟨t, p, cs⟩ => mk t p cs (inductionAll mk cs)

theorem inductionAll {motive : Node → Prop}
    (mk : ∀ t p cs, (∀ c ∈ cs, motive c) → motive ⟨t, p, cs⟩) :
    ∀ (cs : List Node), ∀ c ∈ cs, motive c
  | [] => nofun
  | c :: cs => List.forall_mem_cons.mpr ⟨induction mk c, inductionAll mk cs⟩

end

mutual

/-- How deep the nodes below a node are nested. -/
def depth : Node → Nat
  | ⟨_, _, cs⟩ => depthAll cs

/-- How deep children are nested, each with the nodes below it. -/
def depthAll : List Node → Nat
  | [] => 0
  | c :: cs => max (1 + depth c) (depthAll cs)

end

/-- Whether the length of a payload fits 64 bits. -/
def PayloadFits : Option Payload → Prop
  | some (.bytes raw) => raw.length < UInt64.size
  | _ => True

mutual

/-- Whether every length in the message of a node fits 64 bits. -/
def Fits : Node → Prop
  | ⟨_, p, cs⟩ => PayloadFits p ∧ AllFit cs

/-- Whether every length in the fields of children fits 64 bits. -/
def AllFit : List Node → Prop
  | [] => True
  | c :: cs => (c.encode.length < UInt64.size ∧ Fits c) ∧ AllFit cs

end

theorem le_length_encodePayload (p : Option Payload) :
    (∀ raw, p = some (.bytes raw) → raw.length ≤ (encodePayload p).length) := by
  rintro raw rfl
  simp only [encodePayload, encodeContent, delimited, List.length_append]
  omega

mutual

theorem fits_of_length : ∀ {w : Node}, w.encode.length < UInt64.size → w.Fits
  | ⟨t, p, cs⟩, h => by
    simp only [encode, List.length_append] at h
    refine ⟨?_, allFit_of_length (by omega)⟩
    match p with
    | none | some (.bool _) | some (.uint64 _) => trivial
    | some (.bytes raw) =>
      have := le_length_encodePayload _ raw rfl
      show raw.length < UInt64.size
      omega

theorem allFit_of_length : ∀ {cs : List Node}, (encodeChildren cs).length < UInt64.size → AllFit cs
  | [], _ => trivial
  | c :: cs, h => by
    simp only [encodeChildren, delimited, List.length_append] at h
    exact ⟨⟨by omega, fits_of_length (by omega)⟩, allFit_of_length (by omega)⟩

end

/-! ## Contents -/

theorem readVarintAs_encode {α : Type} (f : Nat → α) (n : Nat) (rest : List UInt8) :
    Finds (n < UInt64.size) (readVarintAs f (Varint.encode n ++ rest)) (f n) rest :=
  (readVarint_encode n rest).withValue f (fun p hp => by rw [readVarintAs, hp])
    fun e he => ⟨e.error, by rw [readVarintAs, he]⟩

theorem readBytesAs_delimited {α : Type} (f : List UInt8 → α) (bytes rest : List UInt8) :
    Finds (bytes.length < UInt64.size) (readBytesAs f (delimited bytes ++ rest)) (f bytes) rest :=
  (readBytes_delimited bytes rest).withValue f (fun p hp => by rw [readBytesAs, hp])
    fun e he => ⟨e.error, by rw [readBytesAs, he]⟩

/-- The low 32 bits of a sign extension to 64 bits are the number itself. -/
theorem discriminantOf_toNat (t : Int32) : discriminantOf t.toInt64.toUInt64.toNat = t := by
  rw [discriminantOf, UInt32.ofNat_uInt64ToNat, ← Int32.toBitVec_inj]
  show (t.toBitVec.signExtend 64).setWidth 32 = t.toBitVec
  ext i hi
  rw [BitVec.getElem_setWidth, BitVec.getLsbD_signExtend, if_pos hi, BitVec.getLsbD_eq_getElem hi,
    decide_eq_true (show i < 64 by omega), Bool.true_and]

section Fields

variable (levels : Nat) (child : (input : List UInt8) → Except DecodeError (Piece Node input))

theorem readField_discriminant (m : Node) (n : Nat) (rest : List UInt8) :
    Finds (n < UInt64.size) (readField levels child m discriminantKey (Varint.encode n ++ rest))
      { m with discriminant := discriminantOf n } rest :=
  .readKnown rfl (readVarintAs_encode _ n rest)

theorem readField_payload (m : Node) (p : Payload) (rest : List UInt8) :
    Finds (PayloadFits (some p)) (readField levels child m (payloadKey p) (encodeContent p ++ rest))
      { m with payload := some p } rest := by
  cases p with
  | bool b =>
    have hb : encodeContent (.bool b) = Varint.encode b.toNat := by
      cases b <;> rw [Varint.encode_of_lt (by decide)] <;> rfl
    have hread := readVarintAs_encode (fun n => { m with payload := some (.bool (n != 0)) })
      b.toNat rest
    have hval : (b.toNat != 0) = b := by cases b <;> rfl
    rw [hval] at hread
    rw [hb]
    refine .readKnown rfl (hread.iff (iff_of_true ?_ trivial))
    cases b <;> decide
  | uint64 n =>
    have hread := readVarintAs_encode
      (fun k => { m with payload := some (.uint64 (.ofNat k)) }) n.toNat rest
    rw [UInt64.ofNat_toNat] at hread
    exact .readKnown rfl (hread.iff (iff_of_true n.toNat_lt trivial))
  | bytes raw => exact .readKnown rfl (readBytesAs_delimited _ raw rest)

theorem passes_discriminant (t : Int32) {m : Node} (h : m.discriminant = 0) :
    Passes True (readField levels child) (encodeDiscriminant t) m { m with discriminant := t } := by
  obtain ⟨t₀, p, cs⟩ := m
  dsimp only at h ⊢
  subst h
  rw [encodeDiscriminant]
  split
  case isTrue ht =>
    rw [ht]
    exact .nil
  case isFalse =>
    have hlt := t.toInt64.toUInt64.toNat_lt
    have hread := readField_discriminant levels child ⟨0, p, cs⟩ t.toInt64.toUInt64.toNat
    rw [discriminantOf_toNat] at hread
    exact (Passes.ofField ⟨by decide, by decide⟩ hread).iff (iff_true_intro hlt)

theorem payloadKey_inRange (p : Payload) : (payloadKey p).InRange := by
  cases p <;> simp [payloadKey, Key.InRange, UInt32.size]

theorem passes_payload (p : Option Payload) {m : Node} (h : m.payload = none) :
    Passes (PayloadFits p) (readField levels child) (encodePayload p) m
      { m with payload := p } := by
  obtain ⟨t, p₀, cs⟩ := m
  dsimp only at h ⊢
  subst h
  cases p with
  | none => exact .nil
  | some p => exact .ofField (payloadKey_inRange p) (readField_payload levels child _ p)

/-- One child is read back as far as the reader for children reads it back. -/
theorem passes_child {ok : Prop} {c : Node}
    (h : ∀ rest, Finds ok (child (delimited c.encode ++ rest)) c rest) (m : Node) :
    Passes ok (readField levels child) (childKey.encode ++ delimited c.encode) m
      { m with children := c :: m.children } := by
  refine .ofField ⟨by decide, by decide⟩ fun rest => .readKnown rfl ?_
  refine (h rest).withValue (fun r => { m with children := r :: m.children }) (fun q hq => ?_)
    fun e he => ⟨e, ?_⟩
  · rw [hq]
  · rw [he]

theorem encodeChildren_eq_flatMap (cs : List Node) :
    encodeChildren cs = cs.flatMap fun c => childKey.encode ++ delimited c.encode := by
  induction cs with
  | nil => rfl
  | cons c cs ih => rw [encodeChildren, List.flatMap_cons, ih]

theorem foldl_addChild (cs : List Node) (t : Int32) (p : Option Payload) (ds : List Node) :
    cs.foldl (fun m c => { m with children := c :: m.children }) (mk t p ds) =
      mk t p (cs.reverse ++ ds) := by
  induction cs generalizing ds with
  | nil => rfl
  | cons c cs ih =>
    rw [List.foldl_cons, ih, List.reverse_cons, List.append_assoc, List.singleton_append]

/-- The fields of a node are read back. -/
theorem passes_encode {ok : Node → Prop}
    (h : ∀ c rest, Finds (ok c) (child (delimited c.encode ++ rest)) c rest) (w : Node) :
    Passes (PayloadFits w.payload ∧ ∀ c ∈ w.children, ok c) (readField levels child) w.encode empty
      w.turn := by
  obtain ⟨t, p, cs⟩ := w
  have hhead : Passes (True ∧ PayloadFits p) (readField levels child)
      (encodeDiscriminant t ++ encodePayload p) empty ⟨t, p, []⟩ :=
    (passes_discriminant levels child t rfl).append (passes_payload levels child p rfl)
  have htail := Passes.flatMap (fun c m => passes_child levels child (h c) m) cs ⟨t, p, []⟩
  have hall := hhead.append htail
  rw [foldl_addChild, List.append_nil, ← encodeChildren_eq_flatMap] at hall
  rw [encode]
  exact hall.iff (by rw [true_and])

end Fields

/-! ## Nodes -/

theorem turn_turn (w : Node) : w.turn.turn = w := by
  obtain ⟨t, p, cs⟩ := w
  simp only [turn, List.reverse_reverse]

theorem depthAll_le_iff {levels : Nat} {cs : List Node} :
    depthAll cs ≤ levels ↔ ∀ c ∈ cs, c.depth < levels := by
  induction cs with
  | nil => simp [depthAll]
  | cons c cs ih =>
    simp only [depthAll, List.forall_mem_cons, ← ih]
    omega

theorem allFit_iff {cs : List Node} :
    AllFit cs ↔ ∀ c ∈ cs, c.encode.length < UInt64.size ∧ c.Fits := by
  induction cs with
  | nil => simp [AllFit]
  | cons c cs ih => simp only [AllFit, List.forall_mem_cons, ih]

/-- What is needed of a node at `levels` is needed of its children at one level less. -/
theorem fits_and_depth_le_iff {levels : Nat} (w : Node) :
    w.Fits ∧ w.depth ≤ levels ↔ PayloadFits w.payload ∧
      ∀ c ∈ w.children, c.encode.length < UInt64.size ∧ c.Fits ∧ c.depth < levels := by
  obtain ⟨t, p, cs⟩ := w
  simp only [Fits, depth, allFit_iff, depthAll_le_iff, ← and_assoc,
    forall_and]

/-- A node behind its length is read back if there is a level for it and for each level below. -/
theorem finds_readNested (levels : Nat) : ∀ (w : Node) (rest : List UInt8),
    Finds (w.encode.length < UInt64.size ∧ w.Fits ∧ w.depth < levels)
      (readNested levels (delimited w.encode ++ rest)) w rest := by
  induction levels with
  | zero =>
    -- no level is left, and no node is so flat that it needs none
    intro w rest
    exact ⟨fun h => absurd h.2.2 (Nat.not_lt_zero _), fun _ => ⟨_, rfl⟩⟩
  | succ levels ih =>
    intro w rest
    have hread := (passes_encode levels (readNested levels) ih w).readDelimited rest
    rw [← fits_and_depth_le_iff] at hread
    -- children are gathered from the last to the first, and turned in the end
    have hturned :
        Finds _ (readNested (levels + 1) (delimited w.encode ++ rest)) w.turn.turn rest :=
      hread.withValue turn (fun q hq => by rw [readNested, hq]) fun e he =>
        ⟨e, by rw [readNested, he]⟩
    rw [turn_turn] at hturned
    exact hturned.iff (by simp only [Nat.lt_succ_iff])

/-- **Nodes are read back.** -/
theorem decode_encode (w : Node) :
    (w.Fits ∧ w.depth ≤ maxLevels → decode w.encode = .ok w) ∧
      (¬(w.Fits ∧ w.depth ≤ maxLevels) → ∃ e, decode w.encode = .error e) := by
  have hfields := passes_encode maxLevels (readNested maxLevels) (finds_readNested maxLevels) w
  have hread := hfields.readMessage
  rw [← fits_and_depth_le_iff] at hread
  constructor
  · intro hok
    rw [decode, hread.1 hok, Except.map, turn_turn]
  · intro hok
    obtain ⟨e, he⟩ := hread.2 hok
    exact ⟨e, by rw [decode, he, Except.map]⟩

end NamedQuery.Wire.Node
