import NamedQuery.Proofs.Wire.Varint
import NamedQuery.Wire.Node

/-!
# Fields are read back

What a reader makes of bytes that were written for it, with any bytes behind them. Both outcomes are
told at once: a condition under which the value is found, and an error whenever it does not hold.
Numbers, keys and lengths may have superfluous groups: what is said of the bytes that are written is
a case of what is said of all spellings.

* `Key.Spells`, `Delimits`: how a key, and bytes behind their length, can be spelled.
* `Finds`: what one reading comes to.
* `Passes`: what the fields of a message come to, one behind the other; it holds of nothing, of one
  field, of one run of fields behind another, and of repeated fields.
* `Passes.readMessage`, `Passes.readDelimited`: the fields as a message of their own, and as one
  behind its length.
-/

namespace NamedQuery.Wire

/-- What a reading comes to: `value` with `rest` behind it if `ok` holds, and an error if not. -/
structure Finds {ε α : Type} {input : List UInt8} (ok : Prop) (r : Except ε (Piece α input))
    (value : α) (rest : List UInt8) : Prop where
  found : ok → ∃ p, r = .ok p ∧ p.value = value ∧ p.rest = rest
  failed : ¬ok → ∃ e, r = .error e

section Pieces

variable {ε α β : Type} {input bytes rest : List UInt8}

theorem Piece.take?_length {p : Piece α input} (h : p.rest = bytes ++ rest) :
    ∃ q, p.take? bytes.length = some q ∧ q.value = bytes ∧ q.rest = rest := by
  have hh : holds bytes.length p.rest = true := by
    rw [holds_iff, h, List.length_append]
    omega
  refine ⟨_, dif_pos hh, ?_, ?_⟩
  · show p.rest.take bytes.length = bytes
    rw [h, List.take_left]
  · show p.rest.drop bytes.length = rest
    rw [h, List.drop_left]

theorem Finds.iff {ok ok' : Prop} {r : Except ε (Piece α input)} {value : α}
    (h : Finds ok r value rest) (hok : ok ↔ ok') : Finds ok' r value rest :=
  ⟨fun h' => h.found (hok.mpr h'), fun h' => h.failed fun hc => h' (hok.mp hc)⟩

/-- A reading that goes on from another one by turning its value into something else. -/
theorem Finds.withValue {δ : Type} {ok : Prop} {r : Except ε (Piece α input)}
    {r' : Except δ (Piece β input)} {value : α} (h : Finds ok r value rest) (f : α → β)
    (hok : ∀ p, r = .ok p → r' = .ok (p.withValue (f p.value)))
    (herror : ∀ e, r = .error e → ∃ e', r' = .error e') : Finds ok r' (f value) rest := by
  constructor
  · intro h'
    obtain ⟨p, hp, hv, hr⟩ := h.found h'
    exact ⟨p.withValue (f p.value), hok p hp, congrArg f hv, hr⟩
  · intro h'
    obtain ⟨e, he⟩ := h.failed h'
    exact herror e he

end Pieces

/-! ## Parts of fields -/

section Parts

variable {α : Type} {bytes rest : List UInt8}

/-- Superfluous groups make no difference. -/
theorem readVarint_of_spells {n : Nat} (h : Varint.Spells bytes n) (rest : List UInt8) :
    ∃ p, readVarint (bytes ++ rest) = .ok p ∧ p.value = n ∧ p.rest = rest := by
  obtain ⟨p, hp, hv, hr⟩ := Varint.read_of_spells rest h
  refine ⟨p, ?_, hv, hr⟩
  rw [readVarint, hp]

theorem readVarint_encode (n : Nat) (rest : List UInt8) :
    Finds (n < UInt64.size) (readVarint (Varint.encode n ++ rest)) n rest where
  found h := readVarint_of_spells (Varint.spells_encode h) rest
  failed h := by
    rw [readVarint, Varint.read_encode_eq_none rest (Nat.le_of_not_lt h)]
    exact ⟨_, rfl⟩

theorem WireType.code_lt (w : WireType) : w.code < 8 := by cases w <;> decide

/-- The numbers that a field can have. -/
def Key.InRange (k : Key) : Prop := 0 < k.field ∧ 8 * k.field + 7 < UInt32.size

/-- `bytes` are the key `k`, with superfluous groups or without. -/
structure Key.Spells (bytes : List UInt8) (k : Key) : Prop where
  inRange : k.InRange
  varint : Varint.Spells bytes (8 * k.field + k.wireType.code)

instance (k : Key) : Decidable k.InRange :=
  inferInstanceAs (Decidable (0 < k.field ∧ 8 * k.field + 7 < UInt32.size))

instance (bytes : List UInt8) (k : Key) : Decidable (Key.Spells bytes k) :=
  decidable_of_iff (k.InRange ∧ Varint.Spells bytes (8 * k.field + k.wireType.code))
    ⟨fun h => ⟨h.1, h.2⟩, fun h => ⟨h.inRange, h.varint⟩⟩

theorem Key.spells_encode {k : Key} (hk : k.InRange) : Spells k.encode k where
  inRange := hk
  varint := Varint.spells_encode (by
    have hw := k.wireType.code_lt
    have hlt := hk.2
    simp only [UInt32.size, UInt64.size] at *
    omega)

theorem readKey_of_spells {k : Key} (h : Key.Spells bytes k) (rest : List UInt8) :
    ∃ p, readKey (bytes ++ rest) = .ok p ∧ p.value = k ∧ p.rest = rest := by
  have hw := k.wireType.code_lt
  obtain ⟨hpos, hlt⟩ := h.inRange
  obtain ⟨p, hp, hv, hr⟩ := readVarint_of_spells h.varint rest
  have hmod : p.value % 8 = k.wireType.code := by omega
  have hdiv : p.value / 8 = k.field := by omega
  refine ⟨p.withValue ⟨p.value / 8, k.wireType⟩, ?_, ?_, hr⟩
  · rw [readKey, hp]
    simp only [hmod, WireType.ofCode?_code]
    rw [if_neg (by omega), if_neg (by omega)]
  · show Key.mk (p.value / 8) k.wireType = k
    rw [hdiv]

/-- `bytes` are `raw` behind its length, which may have superfluous groups. -/
def Delimits (bytes raw : List UInt8) : Prop :=
  ∃ length, Varint.Spells length raw.length ∧ bytes = length ++ raw

theorem delimits_delimited (h : bytes.length < UInt64.size) :
    Delimits (Node.delimited bytes) bytes :=
  ⟨_, Varint.spells_encode h, rfl⟩

/-- Bytes behind a length that is too long for a varint. -/
theorem readVarint_delimited_eq_error (rest : List UInt8) (h : ¬bytes.length < UInt64.size) :
    ∃ e, readVarint (Node.delimited bytes ++ rest) = .error e := by
  rw [Node.delimited, List.append_assoc]
  exact (readVarint_encode bytes.length (bytes ++ rest)).failed h

theorem readBytes_of_delimits {raw : List UInt8} (h : Delimits bytes raw) (rest : List UInt8) :
    ∃ p, readBytes (bytes ++ rest) = .ok p ∧ p.value = raw ∧ p.rest = rest := by
  obtain ⟨length, hlength, rfl⟩ := h
  rw [List.append_assoc]
  obtain ⟨p, hp, hv, hr⟩ := readVarint_of_spells hlength (raw ++ rest)
  obtain ⟨q, hq, hval, hrest⟩ := Piece.take?_length hr
  refine ⟨q, ?_, hval, hrest⟩
  rw [readBytes, hp]
  simp only [hv, hq]

theorem readBytes_delimited (bytes rest : List UInt8) :
    Finds (bytes.length < UInt64.size) (readBytes (Node.delimited bytes ++ rest)) bytes rest where
  found h := readBytes_of_delimits (delimits_delimited h) rest
  failed h := by
    obtain ⟨e, he⟩ := readVarint_delimited_eq_error rest h
    exact ⟨e, by rw [readBytes, he]⟩

theorem Finds.readKnown {ok : Prop} {location : Location} {expected : WireType} {key : Key}
    {input : List UInt8} {content : Except DecodeError (Piece α input)} {value : α}
    (hkey : key.wireType = expected) (h : Finds ok content value rest) :
    Finds ok (readKnown location expected key content) value rest := by
  rw [Wire.readKnown, if_pos hkey]
  constructor
  · intro hok
    obtain ⟨p, hp, hv, hr⟩ := h.found hok
    exact ⟨p, by rw [hp]; rfl, hv, hr⟩
  · intro hok
    obtain ⟨e, he⟩ := h.failed hok
    exact ⟨e.inside location, by rw [he]; rfl⟩

end Parts

/-! ## Runs of fields -/

section Steps

variable {α : Type} {field : FieldReader α} {size total : Nat} {m : α} {input start : List UInt8}

/-- A field that is read takes its bytes from those that the message still has. -/
theorem readFieldsFrom_of_ok {k : Piece Key input} {p : Piece α k.rest}
    (hk : readKey input = .ok k) (hp : field m k.value k.rest = .ok p)
    (hsize : k.size + p.size ≤ size) (h : total + input.length = start.length + size)
    (h' : total + p.rest.length = start.length + (size - (k.size + p.size))) :
    readFieldsFrom field size m input h =
      readFieldsFrom field (size - (k.size + p.size)) p.value p.rest h' := by
  have hpos := k.size_pos
  rw [readFieldsFrom, dif_neg (by omega)]
  simp only [hk, hp]
  rw [dif_neg (by omega)]

/-- A field that is not read ends the message. -/
theorem readFieldsFrom_of_error {k : Piece Key input} {e : DecodeError} (hsize : size ≠ 0)
    (hk : readKey input = .ok k) (hp : field m k.value k.rest = .error e)
    (h : total + input.length = start.length + size) :
    readFieldsFrom field size m input h = .error e := by
  rw [readFieldsFrom, dif_neg hsize]
  simp only [hk, hp]

end Steps

/-- What reading fields comes to over `bytes`: it takes them all and turns `m` into `m'` if `ok`
holds, and ends with an error in them if not. -/
structure Passes {α : Type} (ok : Prop) (field : FieldReader α) (bytes : List UInt8) (m m' : α) :
    Prop where
  through : ok → ∀ {start input rest : List UInt8} {total size more : Nat},
    input = bytes ++ rest → size = bytes.length + more →
    ∀ (h : total + input.length = start.length + size)
      (h' : total + rest.length = start.length + more),
      readFieldsFrom field size m input h = readFieldsFrom field more m' rest h'
  stuck : ¬ok → ∀ {start input rest : List UInt8} {total size more : Nat},
    input = bytes ++ rest → size = bytes.length + more →
    ∀ h : total + input.length = start.length + size,
      ∃ e, readFieldsFrom field size m input h = .error e

namespace Passes

variable {α : Type} {field : FieldReader α} {ok ok₁ ok₂ : Prop} {bytes bytes₁ bytes₂ : List UInt8}
  {m m₁ m₂ : α}

theorem iff (h : Passes ok₁ field bytes m m₁) (hok : ok₁ ↔ ok₂) : Passes ok₂ field bytes m m₁ :=
  ⟨fun h' => h.through (hok.mpr h'), fun h' => h.stuck fun hc => h' (hok.mp hc)⟩

theorem nil : Passes True field [] m m where
  through _ _ input rest _ size more hi hs h h' := by
    rw [List.nil_append] at hi
    rw [List.length_nil, Nat.zero_add] at hs
    subst hi hs
    rfl
  stuck h := absurd trivial h

theorem append (h₁ : Passes ok₁ field bytes₁ m m₁) (h₂ : Passes ok₂ field bytes₂ m₁ m₂) :
    Passes (ok₁ ∧ ok₂) field (bytes₁ ++ bytes₂) m m₂ := by
  constructor
  · intro hok start input rest total size more hi hs h h'
    rw [List.append_assoc] at hi
    rw [List.length_append, Nat.add_assoc] at hs
    have hmid : total + (bytes₂ ++ rest).length = start.length + (bytes₂.length + more) := by
      simp only [List.length_append]
      omega
    rw [h₁.through hok.1 hi hs h hmid, h₂.through hok.2 rfl rfl hmid h']
  · intro hok start input rest total size more hi hs h
    rw [List.append_assoc] at hi
    rw [List.length_append, Nat.add_assoc] at hs
    by_cases hok₁ : ok₁
    · -- the first fields are taken, so the second must be those that fail
      have hmid : total + (bytes₂ ++ rest).length = start.length + (bytes₂.length + more) := by
        simp only [hi, List.length_append] at h ⊢
        omega
      rw [h₁.through hok₁ hi hs h hmid]
      exact h₂.stuck (fun hc => hok ⟨hok₁, hc⟩) rfl rfl hmid
    · exact h₁.stuck hok₁ hi hs h

/-- One field behind its key. -/
theorem ofSpelled {k : Key} {key content : List UInt8} (hk : Key.Spells key k)
    (h : ∀ rest, Finds ok (field m k (content ++ rest)) m₁ rest) :
    Passes ok field (key ++ content) m m₁ := by
  have hpos := hk.varint.groups.length_pos
  constructor
  · intro hok start input rest total size more hi hs hlen hlen'
    rw [List.append_assoc] at hi
    rw [List.length_append] at hs
    subst hi
    obtain ⟨p, hp, hv, hr⟩ := readKey_of_spells hk (content ++ rest)
    -- the reader of the field starts where the key ended, which is in front of the content
    have hfield : ∃ q, field m p.value p.rest = .ok q ∧ q.value = m₁ ∧ q.rest = rest := by
      rw [hv, hr]
      exact (h rest).found hok
    obtain ⟨q, hq, hqv, hqr⟩ := hfield
    have hpsize := p.size_add_length
    have hqsize := q.size_add_length
    rw [hqr] at hqsize
    have hmore : size - (p.size + q.size) = more := by
      simp only [List.length_append] at hpsize
      omega
    rw [readFieldsFrom_of_ok hp hq (by omega) hlen (by rw [hmore, hqr]; exact hlen')]
    simp only [hmore, hqv, hqr]
  · intro hok start input rest total size more hi hs hlen
    rw [List.append_assoc] at hi
    rw [List.length_append] at hs
    subst hi
    obtain ⟨p, hp, hv, hr⟩ := readKey_of_spells hk (content ++ rest)
    have hfield : ∃ e, field m p.value p.rest = .error e := by
      rw [hv, hr]
      exact (h rest).failed hok
    obtain ⟨e, he⟩ := hfield
    exact ⟨e, readFieldsFrom_of_error (by omega) hp he hlen⟩

/-- One field behind its key, as it is written. -/
theorem ofField {k : Key} {content : List UInt8} (hk : k.InRange)
    (h : ∀ rest, Finds ok (field m k (content ++ rest)) m₁ rest) :
    Passes ok field (k.encode ++ content) m m₁ :=
  ofSpelled (Key.spells_encode hk) h

/-- A repeated field: one `item` behind the other. -/
theorem flatMap {β : Type} {okItem : β → Prop} {item : β → List UInt8} {add : α → β → α}
    (h : ∀ b m, Passes (okItem b) field (item b) m (add m b)) (bs : List β) (m : α) :
    Passes (∀ b ∈ bs, okItem b) field (bs.flatMap item) m (bs.foldl add m) := by
  induction bs generalizing m with
  | nil => exact nil.iff (iff_of_true trivial fun b hb => absurd hb List.not_mem_nil)
  | cons b bs ih =>
    rw [List.flatMap_cons, List.foldl_cons]
    exact ((h b m).append (ih (add m b))).iff (by rw [List.forall_mem_cons])

/-- The bytes as all that a message has. -/
theorem readFields {input rest : List UInt8} {size : Nat} (h : Passes ok field bytes m m₁)
    (hi : input = bytes ++ rest) (hs : size = bytes.length) :
    (ok → ∃ r, readFields field size m input = .ok r ∧ r.val = (m₁, rest)) ∧
      (¬ok → ∃ e, readFields field size m input = .error e) := by
  have hlen : size + rest.length = input.length := by
    rw [hi, hs, List.length_append]
  have hs' : size = bytes.length + 0 := hs
  constructor
  · intro hok
    refine ⟨⟨(m₁, rest), hlen⟩, ?_, rfl⟩
    rw [Wire.readFields, h.through hok hi hs' _ hlen, readFieldsFrom, dif_pos rfl]
  · intro hok
    exact h.stuck hok hi hs' _

/-- The bytes as a message of their own. -/
theorem readMessage (h : Passes ok field bytes m m₁) :
    (ok → readMessage field m bytes = .ok m₁) ∧
      (¬ok → ∃ e, readMessage field m bytes = .error e) := by
  obtain ⟨hread, hfail⟩ := h.readFields (List.append_nil bytes).symm rfl
  constructor
  · intro hok
    obtain ⟨r, hr, hv⟩ := hread hok
    rw [Wire.readMessage, hr]
    simp only [hv]
  · intro hok
    obtain ⟨e, he⟩ := hfail hok
    exact ⟨e, by rw [Wire.readMessage, he]⟩

/-- The bytes as a message behind its length. -/
theorem readDelimited_of_delimits {message : List UInt8} (h : Passes ok field message m m₁)
    (hd : Delimits bytes message) (rest : List UInt8) :
    Finds ok (Wire.readDelimited field m (bytes ++ rest)) m₁ rest := by
  obtain ⟨length, hlength, rfl⟩ := hd
  rw [List.append_assoc]
  obtain ⟨p, hp, hv, hr⟩ := readVarint_of_spells hlength (message ++ rest)
  have hholds : holds p.value p.rest = true := by
    rw [holds_iff, hv, hr, List.length_append]
    omega
  obtain ⟨hread, hfail⟩ := h.readFields hr hv
  constructor
  · intro hok
    obtain ⟨r, hr', hval⟩ := hread hok
    have hq : ∃ q, Wire.readDelimited field m (length ++ (message ++ rest)) = .ok q ∧
        q.value = r.val.1 ∧ q.rest = r.val.2 := by
      rw [Wire.readDelimited, hp]
      simp only [hholds, if_true, hr']
      exact ⟨_, rfl, rfl, rfl⟩
    simpa only [hval] using hq
  · intro hok
    obtain ⟨e, he⟩ := hfail hok
    refine ⟨e, ?_⟩
    rw [Wire.readDelimited, hp]
    simp only [hholds, if_true, he]

/-- The bytes as a message behind its length, as it is written. -/
theorem readDelimited (h : Passes ok field bytes m m₁) (rest : List UInt8) :
    Finds (bytes.length < UInt64.size ∧ ok)
      (readDelimited field m (Node.delimited bytes ++ rest)) m₁ rest := by
  by_cases hsize : bytes.length < UInt64.size
  · refine (h.readDelimited_of_delimits (delimits_delimited hsize) rest).iff ?_
    rw [and_iff_right hsize]
  · refine ⟨fun hok => absurd hok.1 hsize, fun _ => ?_⟩
    obtain ⟨e, he⟩ := readVarint_delimited_eq_error rest hsize
    exact ⟨e.error, by rw [Wire.readDelimited, he]⟩

end Passes
end NamedQuery.Wire
