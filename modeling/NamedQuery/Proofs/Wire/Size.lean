import NamedQuery.Proofs.Wire.Acceptance
import NamedQuery.Proofs.Wire.Layout
import NamedQuery.Proofs.Wire.RecordReading

/-!
# How long and how deep messages get

Writing a node again does not give many more bytes than it was read from. Numbers and lengths only
lose superfluous groups, and of what is there several times only the last is kept. But a
discriminant that was cut to 32 bits can turn out negative and then takes all ten groups, and the
lengths of the messages around it grow with it. Payloads that were not given come on top where a node
is made explicit.

* `length_encode_message_le`, `depth_message_le`: the node that records stand for.
* `length_encode_filled_le`, `depth_filled`: a node with all its payloads.
-/

namespace NamedQuery.Wire

/-! ## Varints -/

namespace Varint

variable {m n : Nat} {bytes : List UInt8}

theorem length_encode_pos (n : Nat) : 0 < (encode n).length :=
  List.length_pos_iff.mpr (encode_ne_nil n)

theorem Groups.lt_pow (h : Groups bytes n) : n < 128 ^ bytes.length := by
  induction h with
  | last hb => exact hb
  | @more b bytes n hb _ ih =>
    have hlt := b.toNat_lt
    rw [List.length_cons, Nat.pow_succ]
    omega

/-- What is written has no superfluous groups. -/
theorem Groups.length_encode_le (h : Groups bytes n) : (encode n).length ≤ bytes.length := by
  induction h with
  | @last b hb =>
    rw [encode_of_lt (show b.toNat < 128 from hb)]
    exact Nat.le_refl 1
  | @more b bytes n hb _ ih =>
    have hlt := b.toNat_lt
    rcases Nat.lt_or_ge (b.toNat - 128 + 128 * n) 128 with h | h
    · rw [encode_of_lt h]
      simp
    · rw [encode_of_le h, show (b.toNat - 128 + 128 * n) / 128 = n by omega]
      exact Nat.succ_le_succ ih

theorem length_encode_mono (h : m ≤ n) : (encode m).length ≤ (encode n).length := by
  induction n using Nat.strongRecOn generalizing m with
  | ind n ih =>
    rcases Nat.lt_or_ge m 128 with hm | hm
    · rw [encode_of_lt hm]
      exact length_encode_pos n
    · rw [encode_of_le hm, encode_of_le (Nat.le_trans hm h)]
      exact Nat.succ_le_succ (ih (n / 128) (by omega) (Nat.div_le_div_right h))

/-- A number that is not a group longer takes at most a group more. -/
theorem length_encode_le_succ (h : m < 128 * (n + 1)) :
    (encode m).length ≤ (encode n).length + 1 := by
  rcases Nat.lt_or_ge m 128 with hm | hm
  · rw [encode_of_lt hm]
    exact Nat.succ_le_succ (Nat.zero_le _)
  · rw [encode_of_le hm]
    exact Nat.succ_le_succ (length_encode_mono (by omega))

end Varint

/-! ## Nodes -/

namespace Node

/-- A number of 31 bits is its own sign extension. -/
theorem toNat_ofNat_of_lt {n : Nat} (h : n < 2 ^ 31) :
    (Int32.ofNat n).toInt64.toUInt64.toNat = n := by
  show ((BitVec.ofNat 32 n).signExtend 64).toNat = n
  have hmsb : (BitVec.ofNat 32 n).msb = false := by
    rw [BitVec.msb_eq_false_iff_two_mul_lt, BitVec.toNat_ofNat]
    omega
  rw [BitVec.signExtend_eq_setWidth_of_msb_false hmsb, BitVec.toNat_setWidth, BitVec.toNat_ofNat]
  omega

/-- A discriminant takes no more bytes than its record, unless it has become negative. -/
theorem length_encodeDiscriminant_le {n : Nat} {bytes : List UInt8} (h : Varint.Spells bytes n) :
    (encodeDiscriminant (Int32.ofNat n)).length ≤ 2 * (bytes.length + 1) := by
  have hkey : discriminantKey.encode.length = 1 := by
    rw [show discriminantKey.encode = [0x08] from Varint.encode_of_lt (by decide)]
    rfl
  have hnumber : (Varint.encode (Int32.ofNat n).toInt64.toUInt64.toNat).length ≤
      2 * bytes.length := by
    rcases Nat.lt_or_ge bytes.length 5 with hshort | hlong
    · have hlt : n < 2 ^ 31 := by
        have hpow : 128 ^ bytes.length ≤ 128 ^ 4 :=
          Nat.pow_le_pow_right (by decide) (Nat.le_of_lt_succ hshort)
        exact Nat.lt_of_lt_of_le h.groups.lt_pow (Nat.le_trans hpow (by decide))
      have := h.groups.length_encode_le
      rw [toNat_ofNat_of_lt hlt]
      omega
    · -- ten groups are always enough
      have := (Varint.spells_encode (Int32.ofNat n).toInt64.toUInt64.toNat_lt).length_le
      have : Varint.maxBytes = 10 := rfl
      omega
  rw [encodeDiscriminant]
  split
  · exact Nat.zero_le _
  · rw [List.length_append, hkey]
    omega

theorem length_encode (w : Node) :
    w.encode.length = (encodeDiscriminant w.discriminant).length +
      (encodePayload w.payload).length + (encodeChildren w.children).length := by
  obtain ⟨t, p, cs⟩ := w
  rw [encode, List.length_append, List.length_append]

theorem length_encodePayload (p : Payload) :
    (encodePayload (some p)).length = (encodeContent p).length + 1 := by
  have hkey : (payloadKey p).encode.length = 1 := by
    rw [encode_key_payload]
    cases p <;> rfl
  rw [encodePayload, List.length_append, hkey, Nat.add_comm]

theorem length_encodeChildren_append (cs ds : List Node) :
    (encodeChildren (cs ++ ds)).length =
      (encodeChildren cs).length + (encodeChildren ds).length := by
  rw [encodeChildren_eq_flatMap, encodeChildren_eq_flatMap, encodeChildren_eq_flatMap,
    List.flatMap_append, List.length_append]

theorem length_encodeChildren_cons (c : Node) (cs : List Node) :
    (encodeChildren (c :: cs)).length =
      1 + (Varint.encode c.encode.length).length + c.encode.length + (encodeChildren cs).length := by
  rw [encodeChildren, encode_childKey, delimited]
  simp only [List.length_append, List.length_singleton]
  omega

end Node

/-! ## Records -/

namespace Record

open Node (encodeDiscriminant encodePayload encodeChildren)

theorem lastDiscriminant_cons (r : Record) (rs : List Record) :
    lastDiscriminant (r :: rs) = lastDiscriminant rs ∨
      lastDiscriminant (r :: rs) = lastDiscriminant [r] := by
  rw [lastDiscriminant, lastDiscriminant, lastDiscriminant, getLast?_filterMap_cons,
    getLast?_filterMap_cons]
  cases (rs.filterMap discriminant?).getLast? with
  | none => exact .inr rfl
  | some n => exact .inl rfl

theorem lastPayload_cons (r : Record) (rs : List Record) :
    lastPayload (r :: rs) = lastPayload rs ∨ lastPayload (r :: rs) = lastPayload [r] := by
  rw [lastPayload, lastPayload, lastPayload, getLast?_filterMap_cons, getLast?_filterMap_cons]
  cases (rs.filterMap payload?).getLast? with
  | none => exact .inr rfl
  | some p => exact .inl rfl

/-- Records together give no more bytes than each by itself. -/
theorem length_encode_message_cons_le (r : Record) (rs : List Record) :
    (message (r :: rs)).encode.length ≤
      (message [r]).encode.length + (message rs).encode.length := by
  have hdiscriminant : (encodeDiscriminant (lastDiscriminant (r :: rs))).length ≤
      (encodeDiscriminant (lastDiscriminant [r])).length +
        (encodeDiscriminant (lastDiscriminant rs)).length := by
    rcases lastDiscriminant_cons r rs with h | h <;> rw [h] <;> omega
  have hpayload : (encodePayload (lastPayload (r :: rs))).length ≤
      (encodePayload (lastPayload [r])).length + (encodePayload (lastPayload rs)).length := by
    rcases lastPayload_cons r rs with h | h <;> rw [h] <;> omega
  have hchildren : (encodeChildren (nodes (r :: rs))).length =
      (encodeChildren (nodes [r])).length + (encodeChildren (nodes rs)).length := by
    rw [← Node.length_encodeChildren_append, nodes_eq_map, nodes_eq_map, nodes_eq_map,
      ← List.map_append, ← List.filterMap_append, List.singleton_append]
  simp only [Node.length_encode, message]
  omega

mutual

/-- A record by itself. -/
theorem length_encode_of_spells : ∀ {r : Record} {key content : List UInt8},
    Key.Spells key r.key → Spells content r →
      (message [r]).encode.length ≤ 2 * (key.length + content.length)
  | .discriminant n, _, _, hkey, .discriminant hn => by
    have hpos := hkey.varint.groups.length_pos
    have hle := Node.length_encodeDiscriminant_le hn
    rw [Node.length_encode]
    show (encodeDiscriminant (Int32.ofNat n)).length + 0 + 0 ≤ _
    omega
  | .bool n, _, _, hkey, .bool hn => by
    have hpos := hkey.varint.groups.length_pos
    rw [Node.length_encode]
    show 0 + (encodePayload (some (.bool (n != 0)))).length + 0 ≤ _
    rw [Node.length_encodePayload]
    show 0 + (1 + 1) + 0 ≤ _
    omega
  | .uint64 n, _, _, hkey, .uint64 hn => by
    have hpos := hkey.varint.groups.length_pos
    have hle := hn.groups.length_encode_le
    rw [Node.length_encode]
    show 0 + (encodePayload (some (.uint64 (UInt64.ofNat n)))).length + 0 ≤ _
    rw [Node.length_encodePayload, Node.encodeContent, UInt64.toNat_ofNat_of_lt' hn.lt]
    omega
  | .bytes raw, _, _, hkey, .bytes ⟨length, hlength, hi⟩ => by
    have hpos := hkey.varint.groups.length_pos
    have hle := hlength.groups.length_encode_le
    rw [Node.length_encode]
    show 0 + (encodePayload (some (.bytes raw))).length + 0 ≤ _
    rw [Node.length_encodePayload, Node.encodeContent, Node.delimited, hi, List.length_append,
      List.length_append]
    omega
  | .child rs, _, _, hkey, @Spells.child _ inner _ ⟨length, hlength, hi⟩ hrs => by
    have hpos := hkey.varint.groups.length_pos
    have hpos' := hlength.groups.length_pos
    have hle := hlength.groups.length_encode_le
    have hmessage := length_encode_message_le hrs
    -- the length of twice as many bytes takes at most one group more
    have hgroup := Varint.length_encode_le_succ (m := (message rs).encode.length)
      (n := inner.length) (by omega)
    rw [Node.length_encode]
    show 0 + 0 + (encodeChildren [message rs]).length ≤ _
    rw [Node.length_encodeChildren_cons, hi, List.length_append]
    show 0 + 0 + (1 + _ + _ + 0) ≤ _
    omega
  | .unknown _, _, _, _, .unknown _ _ => Nat.zero_le _

/-- **Writing again at most doubles a message.** -/
theorem length_encode_message_le : ∀ {rs : List Record} {bytes : List UInt8},
    SpellsAll bytes rs → (message rs).encode.length ≤ 2 * bytes.length
  | _, _, .nil => Nat.le_refl 0
  | r :: rs, _, .cons hkey hcontent hrs => by
    have hrecord := length_encode_of_spells hkey hcontent
    have hrest := length_encode_message_le hrs
    have hall := length_encode_message_cons_le r rs
    rw [List.length_append, List.length_append]
    omega

end

mutual

/-- A child is nested no deeper than a reader has to go. -/
theorem depth_of_node? : ∀ {r : Record} {w : Node}, node? r = some w → 1 + w.depth ≤ r.levels
  | .child rs, w, h => by
    cases h
    exact Nat.add_le_add_left (depthAll_nodes_le rs) 1

theorem depthAll_nodes_le : ∀ rs : List Record, Node.depthAll (nodes rs) ≤ levelsAll rs
  | [] => Nat.le_refl 0
  | r :: rs => by
    have hrest := depthAll_nodes_le rs
    rw [nodes, levelsAll]
    cases hnode : node? r with
    | none =>
      show Node.depthAll (nodes rs) ≤ _
      omega
    | some w =>
      have hle := depth_of_node? hnode
      show max (1 + w.depth) (Node.depthAll (nodes rs)) ≤ _
      omega

end

theorem depth_message_le (rs : List Record) : (message rs).depth ≤ levelsAll rs :=
  depthAll_nodes_le rs

end Record

/-! ## Payloads that are filled in -/

namespace Node

theorem length_encodePayload_zero?_le (kind : Kind) :
    (encodePayload kind.zero?).length ≤ 2 := by
  cases kind with
  | uint64 | bytes =>
    rw [Kind.zero?, length_encodePayload, encodeContent]
    simp [delimited, Varint.encode_of_lt]
  | bool =>
    rw [Kind.zero?, length_encodePayload]
    exact Nat.le_refl 2
  | list | nil => exact Nat.zero_le 2

theorem length_encodePayload_filled_le (t : Int32) (p : Option Payload) :
    (encodePayload (p.or ((Kind.ofDiscriminant? t).bind Kind.zero?))).length ≤
      (encodePayload p).length + 2 := by
  cases p with
  | some q => exact Nat.le_add_right _ 2
  | none =>
    rw [Option.none_or]
    cases Kind.ofDiscriminant? t with
    | none => exact Nat.zero_le _
    | some kind => exact Nat.le_trans (length_encodePayload_zero?_le kind) (Nat.le_add_left 2 _)

mutual

theorem length_encode_filled_le : ∀ w : Node, w.filled.encode.length ≤ 3 * w.encode.length + 2
  | ⟨t, p, cs⟩ => by
    have hchildren := length_encodeChildren_filledAll_le cs
    have hpayload := length_encodePayload_filled_le t p
    simp only [length_encode, filled]
    omega

theorem length_encodeChildren_filledAll_le : ∀ cs : List Node,
    (encodeChildren (filledAll cs)).length ≤ 3 * (encodeChildren cs).length
  | [] => Nat.le_refl 0
  | c :: cs => by
    have hchild := length_encode_filled_le c
    have hrest := length_encodeChildren_filledAll_le cs
    have hpos := Varint.length_encode_pos c.encode.length
    have hgroup := Varint.length_encode_le_succ (m := c.filled.encode.length)
      (n := c.encode.length) (by omega)
    rw [filledAll, length_encodeChildren_cons, length_encodeChildren_cons]
    omega

end

mutual

theorem depth_filled : ∀ w : Node, w.filled.depth = w.depth
  | ⟨_, _, cs⟩ => depthAll_filledAll cs

theorem depthAll_filledAll : ∀ cs : List Node, depthAll (filledAll cs) = depthAll cs
  | [] => rfl
  | c :: cs => by
    rw [filledAll, depthAll, depthAll, depth_filled c, depthAll_filledAll cs]

end

end Node

end NamedQuery.Wire
