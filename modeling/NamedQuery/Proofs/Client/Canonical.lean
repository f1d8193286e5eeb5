import Mathlib.Data.List.Permutation
import NamedQuery.Proofs.Client.Exchange
import NamedQuery.Proofs.Wire.Inverse
import NamedQuery.Proofs.Wire.RecordSoundness
import NamedQuery.Proofs.Wire.Size
import NamedQuery.Proofs.Wire.Unambiguous

/-!
# Canonical bytes

A value may come in many spellings: with superfluous groups, with fields that are there several
times or that nobody knows, and without payloads that go without saying. Written again it has one.
This spelling is read as the same value, whatever was read before, because no reader accepts a node
that is nested deeper than it could read again.

* `canonical?`: the bytes that a message becomes when its value is written again.
* `canonical_stable`: such bytes stay what they are, and tell values apart.
-/

namespace NamedQuery

variable {bytes : List UInt8} {v : Value}

/-- The bytes of the value that a message stands for, if it stands for one. -/
def canonical? (message : List UInt8) : Option (List UInt8) :=
  match readElement message with
  | .ok v => some v.encode
  | .error _ => none

theorem canonical?_of_ok (h : readElement bytes = .ok v) : canonical? bytes = some v.encode := by
  rw [canonical?, h]

theorem readElement_eq_ok_iff :
    readElement bytes = .ok v ↔ ∃ w, Wire.Node.decode bytes = .ok w ∧ w.toValue = .ok v := by
  unfold readElement
  constructor
  · intro h
    split at h
    · cases h
    · rename_i w hw
      split at h
      · cases h
      · rename_i v' hv
        cases h
        exact ⟨w, hw, hv⟩
  · rintro ⟨w, hw, hv⟩
    rw [hw]
    dsimp only
    rw [hv]

namespace Wire.Node

variable {w : Node}

/-- What is read can be read again: it is not nested too deep, and not much longer. -/
theorem bounds_of_decode (h : decode bytes = .ok w) :
    w.depth ≤ maxLevels ∧ w.encode.length ≤ 2 * bytes.length := by
  obtain ⟨rs, hrs, hlevels, rfl⟩ := decode_eq_ok_iff.mp h
  exact ⟨Nat.le_trans (Record.depth_message_le rs) hlevels, Record.length_encode_message_le hrs⟩

theorem decode_encode_of_decode (h : decode bytes = .ok w) (hsize : w.encode.length < UInt64.size) :
    decode w.encode = .ok w :=
  (decode_encode w).1 ⟨fits_of_length hsize, (bounds_of_decode h).1⟩

end Wire.Node

/-- The same of values; payloads that go without saying are written, and so the bytes get longer. -/
theorem bounds_of_readElement (h : readElement bytes = .ok v) :
    v.depth ≤ 100 ∧ v.encode.length ≤ 6 * bytes.length + 2 := by
  obtain ⟨w, hw, hv⟩ := readElement_eq_ok_iff.mp h
  obtain ⟨hdepth, hlength⟩ := Wire.Node.bounds_of_decode hw
  have hfilled : Wire.Node.ofValue v = w.filled := Wire.Node.ofValue_of_toValue hv
  constructor
  · rw [← Wire.Node.depth_ofValue, hfilled, Wire.Node.depth_filled]
    exact hdepth
  · have hle := Wire.Node.length_encode_filled_le w
    rw [Value.encode, hfilled]
    omega

theorem Value.encode_inj {v v' : Value} : v.encode = v'.encode ↔ v = v' := by
  constructor
  · intro h
    exact Wire.Node.ofValue_injective (Wire.Node.encode_injective h)
  · rintro rfl
    rfl

/-- **Canonical bytes are stable.** Whatever a node was read from, it is read again from its own
bytes. Whatever a value was read from, it is read again from its canonical bytes, which are their
own canonical bytes. And two messages have the same canonical bytes exactly if they stand for the
same value. The bytes that are written must be few enough that 64 bits count them; they are at most
twice, or six times, as many as were read. -/
theorem canonical_stable :
    (∀ {bytes : List UInt8} {w : Wire.Node}, Wire.Node.decode bytes = .ok w →
      w.encode.length ≤ 2 * bytes.length ∧
      (w.encode.length < UInt64.size → Wire.Node.decode w.encode = .ok w)) ∧
    (∀ {bytes : List UInt8} {v : Value}, readElement bytes = .ok v →
      v.encode.length ≤ 6 * bytes.length + 2 ∧
      canonical? bytes = some v.encode ∧
      (v.encode.length < UInt64.size →
        readElement v.encode = .ok v ∧ canonical? v.encode = some v.encode)) ∧
    ∀ {bytes bytes' : List UInt8} {v v' : Value}, readElement bytes = .ok v →
      readElement bytes' = .ok v' → (canonical? bytes = canonical? bytes' ↔ v = v') := by
  refine ⟨?_, ?_, ?_⟩
  · intro bytes w h
    exact ⟨(Wire.Node.bounds_of_decode h).2, Wire.Node.decode_encode_of_decode h⟩
  · intro bytes v h
    obtain ⟨hdepth, hlength⟩ := bounds_of_readElement h
    refine ⟨hlength, canonical?_of_ok h, ?_⟩
    intro hsize
    have hagain := readElement_encode hdepth hsize
    exact ⟨hagain, canonical?_of_ok hagain⟩
  · intro bytes bytes' v v' h h'
    rw [canonical?_of_ok h, canonical?_of_ok h', Option.some_inj, Value.encode_inj]

/-- A list of the number zero, once with a discriminant that is overwritten, a superfluous group, a
field that nobody knows and a payload that goes without saying, and once with the child in front. -/
theorem canonical_stable_zero :
    let bytes : List UInt8 := [0x08, 0x05, 0x08, 0x99, 0x00, 0x28, 0x01, 0x42, 0x00]
    let bytes' : List UInt8 := [0x42, 0x82, 0x00, 0x18, 0x00, 0x08, 0x19]
    let v : Value := .list [.uint64 0]
    let w : Wire.Node := ⟨25, none, [⟨0, none, []⟩]⟩
    Wire.Node.decode w.encode = .ok w ∧ readElement v.encode = .ok v ∧
      canonical? v.encode = some v.encode ∧ canonical? bytes = canonical? bytes' := by
  intro bytes bytes' v w
  have hw : Wire.Node.decode bytes = .ok w := by cbv
  have hw' : Wire.Node.decode bytes' = .ok ⟨25, none, [⟨0, some (.uint64 0), []⟩]⟩ := by cbv
  have hv : readElement bytes = .ok v := readElement_eq_ok_iff.mpr ⟨w, hw, rfl⟩
  have hv' : readElement bytes' = .ok v := readElement_eq_ok_iff.mpr ⟨_, hw', rfl⟩
  obtain ⟨hnode, hvalue, hsame⟩ := canonical_stable
  obtain ⟨hlength, -, hstable⟩ := hvalue hv
  obtain ⟨hread, hcanonical⟩ := hstable (Nat.lt_of_le_of_lt hlength (by decide))
  refine ⟨(hnode hw).2 ?_, hread, hcanonical, (hsame hv hv').mpr rfl⟩
  exact Nat.lt_of_le_of_lt (hnode hw).1 (by decide)

end NamedQuery
