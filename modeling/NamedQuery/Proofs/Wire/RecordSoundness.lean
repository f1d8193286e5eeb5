import NamedQuery.Proofs.Wire.RecordReading

/-!
# Only records are read

What a reader accepts was made of records, and it has found the node that they stand for. Together
with what is said of records that are read, the messages are thereby known: nothing else is one.

* `Piece.Took`: what the bytes of a piece are, said as the input that it was taken from.
* `took_skipField`: fields that were passed over.
* `took_readField`, `records_of_readFieldsFrom`: the fields of a message, for any reader of its
  children.
* `took_readNested`: a message behind its length, by induction on the levels that are left.
* `decode_eq_ok_iff`: a message of its own, in both directions.
-/

namespace NamedQuery.Wire

/-- The bytes that a piece was taken from are such that `P` holds. -/
def Piece.Took {α : Type} {input : List UInt8} (p : Piece α input) (P : List UInt8 → Prop) : Prop :=
  ∃ bytes, input = bytes ++ p.rest ∧ P bytes

section Pieces

variable {α β : Type} {input : List UInt8} {P Q : List UInt8 → Prop}

theorem Piece.Took.imp {p : Piece α input} (h : p.Took P) (hPQ : ∀ bytes, P bytes → Q bytes) :
    p.Took Q := by
  obtain ⟨bytes, hi, hP⟩ := h
  exact ⟨bytes, hi, hPQ bytes hP⟩

/-! ## Parts of fields -/

theorem took_readVarint {p : Piece Nat input} (h : readVarint input = .ok p) :
    p.Took fun bytes => Varint.Spells bytes p.value := by
  rw [readVarint] at h
  split at h
  · cases h
  · rename_i p' hp
    cases h
    exact Varint.spells_of_read hp

theorem WireType.code_of_ofCode? {n : Nat} {w : WireType} (h : ofCode? n = some w) :
    w.code = n := by
  unfold ofCode? at h
  split at h <;> cases h <;> rfl

theorem took_readKey {k : Piece Key input} (h : readKey input = .ok k) :
    k.Took fun bytes => Key.Spells bytes k.value := by
  rw [readKey] at h
  split at h
  · cases h
  · rename_i r hr
    split at h
    · cases h
    · rename_i hsize
      split at h
      · cases h
      · rename_i w hw
        split at h
        · cases h
        · rename_i hfield
          cases h
          have hcode := WireType.code_of_ofCode? hw
          refine (took_readVarint hr).imp fun bytes hbytes => ⟨⟨?_, ?_⟩, ?_⟩
          · exact Nat.pos_of_ne_zero hfield
          · show 8 * (r.value / 8) + 7 < UInt32.size
            have : UInt32.size = 8 * 536870912 := rfl
            omega
          · show Varint.Spells bytes (8 * (r.value / 8) + w.code)
            rw [hcode, Nat.div_add_mod]
            exact hbytes

theorem took_readBytes {p : Piece (List UInt8) input} (h : readBytes input = .ok p) :
    p.Took fun bytes => Delimits bytes p.value := by
  rw [readBytes] at h
  split at h
  · cases h
  · rename_i r hr
    obtain ⟨length, hi, hlength⟩ := took_readVarint hr
    rw [Piece.take?] at h
    split at h
    · cases h
    · rename_i q hq
      cases h
      obtain ⟨hholds, hq⟩ := Option.dite_none_right_eq_some.mp hq
      cases hq
      rw [holds_iff] at hholds
      refine ⟨length ++ r.rest.take r.value, ?_, length, ?_, rfl⟩
      · show input = length ++ r.rest.take r.value ++ r.rest.drop r.value
        rw [List.append_assoc, List.take_append_drop]
        exact hi
      · show Varint.Spells length (r.rest.take r.value).length
        rwa [List.length_take_of_le hholds]

theorem took_skipBytes {n : Nat} {hn : 0 < n} {p : Piece Unit input}
    (h : skipBytes n hn input = .ok p) : p.Took fun bytes => bytes.length = n := by
  rw [skipBytes] at h
  split at h
  · rename_i hholds
    cases h
    rw [holds_iff] at hholds
    exact ⟨input.take n, (List.take_append_drop n input).symm, List.length_take_of_le hholds⟩
  · cases h

end Pieces

/-! ## Unknown fields -/

/-- Only unknown fields that need at most `levels` levels are passed over. -/
def SkipsOnly (levels : Nat)
    (skip : Key → (input : List UInt8) → Except Fault (Piece Unit input)) : Prop :=
  ∀ {key : Key} {input : List UInt8} {p : Piece Unit input}, skip key input = .ok p →
    ∃ u : Unknown, u.key = key ∧ u.levels ≤ levels ∧ p.Took fun bytes => u.Spells bytes

/-- The fields of a group that was passed over. -/
theorem took_skipGroupFrom {skip : Key → (input : List UInt8) → Except Fault (Piece Unit input)}
    {levels : Nat} (hskip : SkipsOnly levels skip)
    {field size : Nat} {start input : List UInt8} (h : size + input.length = start.length)
    {p : Piece Unit start} (hp : skipGroupFrom skip field size input h = .ok p) :
    ∃ us, Unknown.levelsAll us ≤ levels ∧ ∃ bytes last, input = bytes ++ last ++ p.rest ∧
      Unknown.SpellsAll bytes us ∧ Key.Spells last ⟨field, .endGroup⟩ := by
  fun_induction skipGroupFrom skip field size input h with
  | case1 => cases hp
  | case2 size input h k hk hsize hpos hend hfield =>
    cases hp
    obtain ⟨last, hi, hlast⟩ := took_readKey hk
    have hkey : k.value = ⟨field, .endGroup⟩ := by rw [← hfield, ← hend]
    rw [hkey] at hlast
    exact ⟨[], Nat.zero_le _, [], last, hi, .nil, hlast⟩
  | case3 => cases hp
  | case4 => cases hp
  | case5 size input h k hk hsize hpos hopen q hq hqsize ih =>
    obtain ⟨key, hi, hkey⟩ := took_readKey hk
    obtain ⟨u, hu, hlevels, content, hi', hcontent⟩ := hskip hq
    obtain ⟨us, hlevels', bytes, last, hi'', hus, hlast⟩ := ih hp
    rw [← hu] at hkey
    refine ⟨u :: us, Nat.max_le.mpr ⟨hlevels, hlevels'⟩, key ++ content ++ bytes, last, ?_,
      .cons hkey hcontent hus, hlast⟩
    rw [hi, hi', hi'']
    simp only [List.append_assoc]

/-- A field that was passed over. -/
theorem took_skipField (levels : Nat) : SkipsOnly levels (skipField levels) := by
  induction levels with
  | zero =>
    intro key input p h
    cases h
  | succ levels ih =>
    intro key input p h
    have hone : 1 ≤ levels + 1 := Nat.succ_le_succ (Nat.zero_le levels)
    obtain ⟨field, wireType⟩ := key
    cases wireType with
    | varint =>
      simp only [skipField] at h
      split at h
      · cases h
      · rename_i r hr
        cases h
        exact ⟨.varint field r.value, rfl, hone, (took_readVarint hr).imp fun _ => .varint⟩
    | sixtyFourBit =>
      obtain ⟨raw, hi, hraw⟩ := took_skipBytes h
      exact ⟨.sixtyFourBit field raw, rfl, hone, raw, hi, .sixtyFourBit hraw⟩
    | lengthDelimited =>
      simp only [skipField] at h
      split at h
      · cases h
      · rename_i r hr
        cases h
        exact ⟨.lengthDelimited field r.value, rfl, hone,
          (took_readBytes hr).imp fun _ => .lengthDelimited⟩
    | thirtyTwoBit =>
      obtain ⟨raw, hi, hraw⟩ := took_skipBytes h
      exact ⟨.thirtyTwoBit field raw, rfl, hone, raw, hi, .thirtyTwoBit hraw⟩
    | startGroup =>
      obtain ⟨us, hlevels, bytes, last, hi, hus, hlast⟩ := took_skipGroupFrom ih _ h
      refine ⟨.group field us, rfl, ?_, bytes ++ last, hi, .group hus hlast⟩
      rw [Unknown.levels]
      omega
    | endGroup => cases h

/-! ## Records of a node -/

namespace Node

theorem readKnown_eq_ok {α : Type} {location : Location} {expected : WireType} {key : Key}
    {input : List UInt8} {content : Except DecodeError (Piece α input)} {p : Piece α input}
    (h : readKnown location expected key content = .ok p) :
    key.wireType = expected ∧ content = .ok p := by
  rw [readKnown] at h
  split at h
  · rename_i hkey
    cases content with
    | error e => cases h
    | ok q => exact ⟨hkey, h⟩
  · cases h

/-- A known field that was a varint. -/
theorem took_known_varint {α : Type} {location : Location} {key : Key} {f : Nat → α}
    {input : List UInt8} {p : Piece α input}
    (h : readKnown location .varint key (readVarintAs f input) = .ok p) :
    key.wireType = .varint ∧ ∃ n, p.value = f n ∧ p.Took fun bytes => Varint.Spells bytes n := by
  obtain ⟨hkey, hcontent⟩ := readKnown_eq_ok h
  rw [readVarintAs] at hcontent
  split at hcontent
  · cases hcontent
  · rename_i r hr
    cases hcontent
    exact ⟨hkey, r.value, rfl, took_readVarint hr⟩

/-- A known field that was bytes behind their length. -/
theorem took_known_bytes {α : Type} {location : Location} {key : Key} {f : List UInt8 → α}
    {input : List UInt8} {p : Piece α input}
    (h : readKnown location .lengthDelimited key (readBytesAs f input) = .ok p) :
    key.wireType = .lengthDelimited ∧
      ∃ raw, p.value = f raw ∧ p.Took fun bytes => Delimits bytes raw := by
  obtain ⟨hkey, hcontent⟩ := readKnown_eq_ok h
  rw [readBytesAs] at hcontent
  split at hcontent
  · cases hcontent
  · rename_i r hr
    cases hcontent
    exact ⟨hkey, r.value, rfl, took_readBytes hr⟩

/-- Only messages behind their length are read that need at most `levels` levels, one for themselves
among them. -/
def ReadsOnly (levels : Nat)
    (child : (input : List UInt8) → Except DecodeError (Piece Node input)) : Prop :=
  ∀ {input : List UInt8} {p : Piece Node input}, child input = .ok p →
    ∃ rs, 1 + Record.levelsAll rs ≤ levels ∧ p.value = Record.message rs ∧
      p.Took fun bytes => ∃ message, Delimits bytes message ∧ Record.SpellsAll message rs

section Records

variable {levels : Nat} {child : (input : List UInt8) → Except DecodeError (Piece Node input)}

/-- A field of a node was a record, and changed what is known as that does. -/
theorem took_readField (hchild : ReadsOnly levels child) {m : Node} {key : Key}
    {input : List UInt8} {p : Piece Node input} (h : readField levels child m key input = .ok p) :
    ∃ r : Record, r.key = key ∧ r.levels ≤ levels ∧ p.value = r.update m ∧
      p.Took fun bytes => r.Spells bytes := by
  obtain ⟨field, wireType⟩ := key
  have hfree : 0 ≤ levels := Nat.zero_le levels
  rw [readField] at h
  split at h
  · rename_i hfield
    cases hfield
    obtain ⟨rfl, n, hv, htook⟩ := took_known_varint h
    exact ⟨.discriminant n, rfl, hfree, hv, htook.imp fun _ => .discriminant⟩
  · rename_i hfield
    cases hfield
    obtain ⟨rfl, n, hv, htook⟩ := took_known_varint h
    exact ⟨.bool n, rfl, hfree, hv, htook.imp fun _ => .bool⟩
  · rename_i hfield
    cases hfield
    obtain ⟨rfl, n, hv, htook⟩ := took_known_varint h
    exact ⟨.uint64 n, rfl, hfree, hv, htook.imp fun _ => .uint64⟩
  · rename_i hfield
    cases hfield
    obtain ⟨rfl, raw, hv, htook⟩ := took_known_bytes h
    exact ⟨.bytes raw, rfl, hfree, hv, htook.imp fun _ => .bytes⟩
  · rename_i hfield
    cases hfield
    obtain ⟨rfl, hcontent⟩ := readKnown_eq_ok h
    split at hcontent
    · cases hcontent
    · rename_i c hc
      cases hcontent
      obtain ⟨rs, hlevels, hv, htook⟩ := hchild hc
      refine ⟨.child rs, rfl, hlevels, ?_, htook.imp ?_⟩
      · show { m with children := c.value :: m.children } = _
        rw [hv, Record.update]
      · rintro bytes ⟨message, hmessage, hrs⟩
        exact .child hmessage hrs
  · rename_i h1 h2 h3 h4 h8
    rw [skipUnknown] at h
    split at h
    · cases h
    · rename_i q hq
      cases h
      obtain ⟨u, hu, hlevels, htook⟩ := took_skipField levels hq
      have hunknown : u.key.field ∉ Record.knownFields := by
        rw [hu]
        simp only [Record.knownFields, List.mem_cons, List.not_mem_nil, or_false, not_or]
        exact ⟨h1, h2, h3, h4, h8⟩
      exact ⟨.unknown u, hu, hlevels, rfl, htook.imp fun _ => .unknown hunknown⟩

/-- The fields of a message were records. -/
theorem records_of_readFieldsFrom (hchild : ReadsOnly levels child) {start input : List UInt8}
    {total size : Nat} {m : Node} (h : total + input.length = start.length + size)
    {r : { r : Node × List UInt8 // total + r.2.length = start.length }}
    (hr : readFieldsFrom (readField levels child) size m input h = .ok r) :
    ∃ rs, Record.levelsAll rs ≤ levels ∧ r.val.1 = rs.foldl Record.update m ∧
      ∃ bytes, bytes.length = size ∧ input = bytes ++ r.val.2 ∧ Record.SpellsAll bytes rs := by
  fun_induction readFieldsFrom (readField levels child) size m input h with
  | case1 m input h =>
    cases hr
    exact ⟨[], Nat.zero_le _, rfl, [], rfl, rfl, .nil⟩
  | case2 => cases hr
  | case3 => cases hr
  | case4 => cases hr
  | case5 size m input h hne k hk q hq hksize hqsize hpos hle ih =>
    obtain ⟨key, hi, hkey⟩ := took_readKey hk
    obtain ⟨record, hrecord, hlevels, hv, content, hi', hcontent⟩ := took_readField hchild hq
    obtain ⟨rs, hlevels', hfold, bytes, hlength, hi'', hrs⟩ := ih hr
    rw [← hrecord] at hkey
    rw [hv] at hfold
    refine ⟨record :: rs, Nat.max_le.mpr ⟨hlevels, hlevels'⟩, hfold, key ++ content ++ bytes, ?_, ?_,
      .cons hkey hcontent hrs⟩
    · -- the pieces have as many bytes as they were taken from
      have hkeylength := congrArg List.length hi
      have hcontentlength := congrArg List.length hi'
      simp only [List.length_append] at hkeylength hcontentlength ⊢
      omega
    · rw [hi, hi', hi'']
      simp only [List.append_assoc]

/-- The fields of a message behind its length were records. -/
theorem took_readDelimited (hchild : ReadsOnly levels child) {m : Node} {input : List UInt8}
    {p : Piece Node input} (h : readDelimited (readField levels child) m input = .ok p) :
    ∃ rs, Record.levelsAll rs ≤ levels ∧ p.value = rs.foldl Record.update m ∧
      p.Took fun bytes => ∃ message, Delimits bytes message ∧ Record.SpellsAll message rs := by
  rw [readDelimited] at h
  split at h
  · cases h
  · rename_i n hn
    split at h
    · split at h
      · cases h
      · rename_i r hr
        cases h
        obtain ⟨length, hi, hlength⟩ := took_readVarint hn
        obtain ⟨rs, hlevels, hfold, message, hsize, hi', hrs⟩ :=
          records_of_readFieldsFrom hchild _ hr
        rw [← hsize] at hlength
        refine ⟨rs, hlevels, hfold, length ++ message, ?_, message, ⟨length, hlength, rfl⟩, hrs⟩
        show input = length ++ message ++ r.val.2
        rw [List.append_assoc, ← hi']
        exact hi
    · cases h

end Records

/-- A message behind its length was one, and there was a level for it. -/
theorem took_readNested (levels : Nat) : ReadsOnly levels (readNested levels) := by
  induction levels with
  | zero =>
    intro input p h
    cases h
  | succ levels ih =>
    intro input p h
    rw [readNested] at h
    split at h
    · cases h
    · rename_i q hq
      cases h
      obtain ⟨rs, hlevels, hfold, htook⟩ := took_readDelimited ih hq
      refine ⟨rs, by omega, ?_, htook⟩
      show q.value.turn = Record.message rs
      rw [hfold, Record.turn_foldl_update]

/-- **The language of the messages.** A message is read as a node exactly if it consists of records
that need no more than the levels there are, and stand for this node. -/
theorem decode_eq_ok_iff {bytes : List UInt8} {w : Node} :
    decode bytes = .ok w ↔
      ∃ rs, Record.SpellsAll bytes rs ∧ Record.levelsAll rs ≤ maxLevels ∧ Record.message rs = w := by
  constructor
  · intro h
    rw [decode, readMessage] at h
    split at h
    · cases h
    · rename_i r hr
      cases h
      obtain ⟨rs, hlevels, hfold, message, hsize, hi, hrs⟩ :=
        records_of_readFieldsFrom (took_readNested maxLevels) _ hr
      -- as many bytes as there are leave nothing behind them
      have hrest : r.val.2 = [] := List.eq_nil_of_length_eq_zero (by
        have := r.property
        omega)
      rw [hrest, List.append_nil] at hi
      subst hi
      refine ⟨rs, hrs, hlevels, ?_⟩
      show Record.message rs = r.val.1.turn
      rw [hfold, Record.turn_foldl_update]
  · rintro ⟨rs, hrs, hlevels, rfl⟩
    exact (decode_of_spells hrs).1 hlevels

end Node

end NamedQuery.Wire
