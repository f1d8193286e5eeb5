import NamedQuery.Proofs.Wire.Node
import NamedQuery.Proofs.Wire.Record

/-!
# Records are read

Whatever records a message consists of, it is read as the node that they stand for, unless they need
more levels than the reader has. So records of unknown fields may come and go, and records may change
places as long as they concern different parts of the node.

* `finds_skipField`: unknown fields are passed over.
* `passes_records`: the records of a message, for any reader of its children.
* `finds_readNested_records`: a message behind its length, by induction on the levels that are left.
* `decode_of_spells`: a message of its own.
-/

namespace NamedQuery.Wire

/-! ## Unknown fields -/

section Skip

variable {skip : Key → (input : List UInt8) → Except Fault (Piece Unit input)}
  {field size : Nat} {input start rest : List UInt8}

/-- A field of a group that is passed over. -/
theorem skipGroupFrom_of_ok {k : Piece Key input} {p : Piece Unit k.rest}
    (hk : readKey input = .ok k) (hopen : k.value.wireType ≠ .endGroup)
    (hp : skip k.value k.rest = .ok p) (h : size + input.length = start.length)
    (h' : size + k.size + p.size + p.rest.length = start.length) :
    skipGroupFrom skip field size input h =
      skipGroupFrom skip field (size + k.size + p.size) p.rest h' := by
  rw [skipGroupFrom]
  simp only [hk, if_neg hopen, hp]

/-- A field of a group that is not passed over. -/
theorem skipGroupFrom_of_error {k : Piece Key input} {f : Fault} (hk : readKey input = .ok k)
    (hopen : k.value.wireType ≠ .endGroup) (hp : skip k.value k.rest = .error f)
    (h : size + input.length = start.length) :
    skipGroupFrom skip field size input h = .error f := by
  rw [skipGroupFrom]
  simp only [hk, if_neg hopen, hp]

/-- The end of a group. -/
theorem skipGroupFrom_of_end
    (skip : Key → (input : List UInt8) → Except Fault (Piece Unit input)) {k : Piece Key input}
    (hk : readKey input = .ok k) (hend : k.value = ⟨field, .endGroup⟩)
    (h : size + input.length = start.length) :
    ∃ p, skipGroupFrom skip field size input h = .ok p ∧ p.rest = k.rest := by
  rw [skipGroupFrom]
  simp only [hk, hend, if_true]
  exact ⟨_, rfl, rfl⟩

/-- The fields of a group are passed over as far as each of them is. -/
theorem finds_skipGroupFrom {ok : Unknown → Prop} {last : List UInt8}
    (hskip : ∀ {u content}, Unknown.Spells content u → ∀ rest,
      Finds (ok u) (skip u.key (content ++ rest)) () rest)
    (hlast : Key.Spells last ⟨field, .endGroup⟩) {us : List Unknown} {bytes : List UInt8}
    (hus : Unknown.SpellsAll bytes us) (hi : input = bytes ++ (last ++ rest))
    (h : size + input.length = start.length) :
    Finds (∀ u ∈ us, ok u) (skipGroupFrom skip field size input h) () rest := by
  induction us generalizing bytes size input with
  | nil =>
    cases hus
    rw [List.nil_append] at hi
    subst hi
    obtain ⟨k, hk, hv, hr⟩ := readKey_of_spells hlast rest
    obtain ⟨p, hp, hrest⟩ := skipGroupFrom_of_end skip hk hv h
    exact ⟨fun _ => ⟨p, hp, rfl, hrest.trans hr⟩, fun hno => absurd (List.forall_mem_nil _) hno⟩
  | cons u us ih =>
    cases hus with
    | @cons key content bytes _ _ hkey hcontent hus =>
      rw [List.append_assoc, List.append_assoc] at hi
      subst hi
      obtain ⟨k, hk, hv, hr⟩ := readKey_of_spells hkey (content ++ (bytes ++ (last ++ rest)))
      have hopen : k.value.wireType ≠ .endGroup := by
        rw [hv]
        exact u.key_ne_endGroup
      have hfield : Finds (ok u) (skip k.value k.rest) () (bytes ++ (last ++ rest)) := by
        rw [hv, hr]
        exact hskip hcontent _
      rw [List.forall_mem_cons]
      by_cases hu : ok u
      · obtain ⟨p, hp, -, hrest⟩ := hfield.found hu
        have hk' := k.size_add_length
        have hp' := p.size_add_length
        rw [skipGroupFrom_of_ok hk hopen hp h (by omega)]
        exact (ih hus hrest _).iff (by rw [and_iff_right hu])
      · obtain ⟨f, hf⟩ := hfield.failed hu
        refine ⟨fun hall => absurd hall.1 hu, fun _ => ⟨f, ?_⟩⟩
        exact skipGroupFrom_of_error hk hopen hf h

end Skip

theorem skipBytes_append {n : Nat} {raw : List UInt8} (hn : 0 < n) (h : raw.length = n)
    (rest : List UInt8) :
    ∃ p, skipBytes n hn (raw ++ rest) = .ok p ∧ p.rest = rest := by
  have hh : holds n (raw ++ rest) = true := by
    rw [holds_iff, List.length_append]
    omega
  rw [skipBytes, dif_pos hh]
  refine ⟨_, rfl, ?_⟩
  show (raw ++ rest).drop n = rest
  rw [← h, List.drop_left]

/-- An unknown field is passed over if there is a level for it, and in a group for each field of the
group at one level less. -/
theorem finds_skipField (levels : Nat) : ∀ {u : Unknown} {content : List UInt8},
    u.Spells content → ∀ rest,
      Finds (u.levels ≤ levels) (skipField levels u.key (content ++ rest)) () rest := by
  induction levels with
  | zero =>
    intro u content _ rest
    exact ⟨fun h => absurd h (Nat.not_le.mpr u.levels_pos), fun _ => ⟨_, rfl⟩⟩
  | succ levels ih =>
    intro u content h rest
    have hone : 1 ≤ levels + 1 := Nat.succ_le_succ (Nat.zero_le levels)
    cases h with
    | varint hn =>
      obtain ⟨p, hp, -, hr⟩ := readVarint_of_spells hn rest
      refine ⟨fun _ => ⟨p.withValue (), ?_, rfl, hr⟩, fun hno => absurd hone hno⟩
      simp only [Unknown.key, skipField, hp]
    | sixtyFourBit hlength =>
      obtain ⟨p, hp, hr⟩ := skipBytes_append (by decide) hlength rest
      exact ⟨fun _ => ⟨p, hp, rfl, hr⟩, fun hno => absurd hone hno⟩
    | lengthDelimited hraw =>
      obtain ⟨p, hp, -, hr⟩ := readBytes_of_delimits hraw rest
      refine ⟨fun _ => ⟨p.withValue (), ?_, rfl, hr⟩, fun hno => absurd hone hno⟩
      simp only [Unknown.key, skipField, hp]
    | thirtyTwoBit hlength =>
      obtain ⟨p, hp, hr⟩ := skipBytes_append (by decide) hlength rest
      exact ⟨fun _ => ⟨p, hp, rfl, hr⟩, fun hno => absurd hone hno⟩
    | group hus hlast =>
      have hgroup := finds_skipGroupFrom ih hlast hus
        (List.append_assoc _ _ rest) (Nat.zero_add _)
      refine hgroup.iff ?_
      rw [Unknown.levels, ← Unknown.levelsAll_le_iff]
      omega

/-! ## Records of a node -/

namespace Record

/-- What is known of a message after a record; its children are kept last first. -/
def update (m : Node) : Record → Node
  | discriminant n => { m with discriminant := Int32.ofNat n }
  | bool n => { m with payload := some (.bool (n != 0)) }
  | uint64 n => { m with payload := some (.uint64 (UInt64.ofNat n)) }
  | bytes raw => { m with payload := some (.bytes raw) }
  | child rs => { m with children := message rs :: m.children }
  | unknown _ => m

theorem update_eq (t : Int32) (p : Option Payload) (cs : List Node) (r : Record) :
    update ⟨t, p, cs⟩ r =
      ⟨((discriminant? r).map Int32.ofNat).getD t, (payload? r).or p, (node? r).toList ++ cs⟩ := by
  cases r <;> rfl

theorem getLast?_filterMap_cons {α β : Type} (f : α → Option β) (a : α) (as : List α) :
    ((a :: as).filterMap f).getLast? = (as.filterMap f).getLast?.or (f a) := by
  cases h : f a with
  | none => rw [List.filterMap_cons_none h, Option.or_none]
  | some b =>
    rw [List.filterMap_cons_some h, List.getLast?_cons]
    cases (as.filterMap f).getLast? <;> rfl

/-- What is known after records: the last discriminant and the last payload among them, and their
children in front of those before. -/
theorem foldl_update (rs : List Record) (t : Int32) (p : Option Payload) (cs : List Node) :
    rs.foldl update ⟨t, p, cs⟩ =
      ⟨((rs.filterMap discriminant?).getLast?.map Int32.ofNat).getD t, (lastPayload rs).or p,
        (nodes rs).reverse ++ cs⟩ := by
  induction rs generalizing t p cs with
  | nil => rfl
  | cons r rs ih =>
    rw [List.foldl_cons, update_eq, ih, lastPayload, lastPayload, nodes, getLast?_filterMap_cons,
      getLast?_filterMap_cons, Option.or_assoc]
    congr 1
    · cases (rs.filterMap discriminant?).getLast? <;> rfl
    · cases node? r <;> simp

theorem turn_foldl_update (rs : List Record) : (rs.foldl update Node.empty).turn = message rs := by
  rw [Node.empty, foldl_update, Node.turn, List.append_nil, List.reverse_reverse, Option.or_none]
  rfl

end Record

namespace Node

theorem readVarintAs_of_spells {α : Type} (f : Nat → α) {n : Nat} {bytes : List UInt8}
    (h : Varint.Spells bytes n) (rest : List UInt8) :
    Finds True (readVarintAs f (bytes ++ rest)) (f n) rest := by
  obtain ⟨p, hp, hv, hr⟩ := readVarint_of_spells h rest
  refine ⟨fun _ => ⟨p.withValue (f p.value), ?_, congrArg f hv, hr⟩, fun hno => absurd trivial hno⟩
  rw [readVarintAs, hp]

theorem readBytesAs_of_delimits {α : Type} (f : List UInt8 → α) {bytes raw : List UInt8}
    (h : Delimits bytes raw) (rest : List UInt8) :
    Finds True (readBytesAs f (bytes ++ rest)) (f raw) rest := by
  obtain ⟨p, hp, hv, hr⟩ := readBytes_of_delimits h rest
  refine ⟨fun _ => ⟨p.withValue (f p.value), ?_, congrArg f hv, hr⟩, fun hno => absurd trivial hno⟩
  rw [readBytesAs, hp]

/-- Messages behind their length are read if there is a level for them and those that their records
need. -/
def ReadsChildren (levels : Nat)
    (child : (input : List UInt8) → Except DecodeError (Piece Node input)) : Prop :=
  ∀ {rs : List Record} {bytes message : List UInt8}, Record.SpellsAll message rs →
    Delimits bytes message → ∀ rest,
      Finds (1 + Record.levelsAll rs ≤ levels) (child (bytes ++ rest)) (Record.message rs) rest

section Records

variable {levels : Nat} {child : (input : List UInt8) → Except DecodeError (Piece Node input)}

theorem readField_of_unknown {key : Key} (hkey : key.field ∉ Record.knownFields) (m : Node)
    (input : List UInt8) : readField levels child m key input = skipUnknown levels m key input := by
  simp only [Record.knownFields, List.mem_cons, List.not_mem_nil, or_false, not_or] at hkey
  obtain ⟨h1, h2, h3, h4, h8⟩ := hkey
  obtain ⟨field, wireType⟩ := key
  rw [readField]
  split
  · exact absurd ‹_› h1
  · exact absurd ‹_› h2
  · exact absurd ‹_› h3
  · exact absurd ‹_› h4
  · exact absurd ‹_› h8
  · rfl

/-- One record changes what is known of the message, if there are the levels that it needs. -/
theorem passes_record (hchild : ReadsChildren levels child) {r : Record}
    {key content : List UInt8} (hkey : Key.Spells key r.key) (hr : Record.Spells content r)
    (m : Node) :
    Passes (r.levels ≤ levels) (readField levels child) (key ++ content) m (r.update m) := by
  refine .ofSpelled hkey fun rest => ?_
  have hfree : True ↔ 0 ≤ levels := iff_of_true trivial (Nat.zero_le levels)
  cases hr with
  | discriminant hn => exact .iff (.readKnown rfl (readVarintAs_of_spells _ hn rest)) hfree
  | bool hn => exact .iff (.readKnown rfl (readVarintAs_of_spells _ hn rest)) hfree
  | uint64 hn => exact .iff (.readKnown rfl (readVarintAs_of_spells _ hn rest)) hfree
  | bytes hraw => exact .iff (.readKnown rfl (readBytesAs_of_delimits _ hraw rest)) hfree
  | @child _ _ rs hmessage hrs =>
    refine .readKnown rfl ?_
    refine (hchild hrs hmessage rest).withValue
      (fun c => { m with children := c :: m.children }) (fun p hp => ?_) fun e he => ⟨e, ?_⟩
    · rw [hp]
    · rw [he]
  | @unknown _ u hu hcontent =>
    show Finds _ (readField levels child m u.key (content ++ rest)) m rest
    rw [readField_of_unknown hu]
    refine (finds_skipField levels hcontent rest).withValue (fun _ => m) (fun p hp => ?_)
      fun f hf => ⟨f.error, ?_⟩
    · rw [skipUnknown, hp]
    · rw [skipUnknown, hf]

theorem passes_records (hchild : ReadsChildren levels child) {rs : List Record}
    {bytes : List UInt8} (hrs : Record.SpellsAll bytes rs) (m : Node) :
    Passes (Record.levelsAll rs ≤ levels) (readField levels child) bytes m
      (rs.foldl Record.update m) := by
  induction rs generalizing bytes m with
  | nil =>
    cases hrs
    exact Passes.nil.iff (iff_of_true trivial (Nat.zero_le levels))
  | cons r rs ih =>
    cases hrs with
    | cons hkey hcontent hrs =>
      refine ((passes_record hchild hkey hcontent m).append (ih hrs (r.update m))).iff ?_
      rw [Record.levelsAll, Nat.max_le]

end Records

/-- Each level that there is takes one level of nesting. -/
theorem finds_readNested_records (levels : Nat) : ReadsChildren levels (readNested levels) := by
  induction levels with
  | zero =>
    intro rs bytes message _ _ rest
    exact ⟨fun h => absurd h (by omega), fun _ => ⟨_, rfl⟩⟩
  | succ levels ih =>
    intro rs bytes message hrs hmessage rest
    have hread := (passes_records ih hrs empty).readDelimited_of_delimits hmessage rest
    rw [← Record.turn_foldl_update]
    refine (hread.withValue turn (fun p hp => ?_) fun e he => ⟨e, ?_⟩).iff (by omega)
    · rw [readNested, hp]
    · rw [readNested, he]

/-- A message of its own. -/
theorem decode_of_spells {rs : List Record} {bytes : List UInt8} (hrs : Record.SpellsAll bytes rs) :
    (Record.levelsAll rs ≤ maxLevels → decode bytes = .ok (Record.message rs)) ∧
      (¬Record.levelsAll rs ≤ maxLevels → ∃ e, decode bytes = .error e) := by
  have hread := (passes_records (finds_readNested_records maxLevels) hrs empty).readMessage
  constructor
  · intro hok
    rw [decode, hread.1 hok, Except.map, Record.turn_foldl_update]
  · intro hno
    obtain ⟨e, he⟩ := hread.2 hno
    exact ⟨e, by rw [decode, he, Except.map]⟩

end Node

end NamedQuery.Wire
