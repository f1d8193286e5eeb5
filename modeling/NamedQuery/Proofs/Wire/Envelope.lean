import NamedQuery.Proofs.Wire.Node
import NamedQuery.Wire.Envelope

/-!
# Envelopes are read back

The message of a request gives back its name and its parameters, if each length in it fits 64 bits
and no parameter is nested too deep; one level of the reader is used up by the envelope.
-/

namespace NamedQuery.Wire.Envelope

/-- What is needed of an envelope so that it is read back. -/
structure Readable (e : Envelope) : Prop where
  name : (Text.utf8 e.name).length < UInt64.size
  params : ∀ p ∈ e.params, p.encode.length < UInt64.size ∧ p.Fits ∧ p.depth < Node.maxLevels

theorem finds_readText (s : String) (rest : List UInt8) :
    Finds ((Text.utf8 s).length < UInt64.size)
      (readText (Node.delimited (Text.utf8 s) ++ rest)) s rest := by
  have hread := readBytes_delimited (Text.utf8 s) rest
  constructor
  · intro hok
    obtain ⟨p, hp, hv, hr⟩ := hread.found hok
    refine ⟨p.withValue s, ?_, rfl, hr⟩
    rw [readText, hp]
    simp only [hv, Text.ofUtf8?_utf8]
  · intro hok
    obtain ⟨e, he⟩ := hread.failed hok
    exact ⟨e.error, by rw [readText, he]⟩

theorem passes_name (s : String) (ps : List Node) :
    Passes ((Text.utf8 s).length < UInt64.size) readField (encodeName s) ⟨"", ps⟩ ⟨s, ps⟩ := by
  rw [encodeName]
  split
  case isTrue h =>
    rw [String.isEmpty_iff] at h
    subst h
    exact Passes.nil.iff (iff_of_true trivial (by decide))
  case isFalse =>
    refine .ofField ⟨by decide, by decide⟩ fun rest => .readKnown rfl ?_
    refine (finds_readText s rest).withValue (fun n => mk n ps) (fun q hq => ?_) fun e he => ⟨e, ?_⟩
    · rw [hq]
    · rw [he]

theorem passes_param (p : Node) (e : Envelope) :
    Passes (p.encode.length < UInt64.size ∧ p.Fits ∧ p.depth < Node.maxLevels) readField
      (paramKey.encode ++ Node.delimited p.encode) e { e with params := p :: e.params } := by
  refine .ofField ⟨by decide, by decide⟩ fun rest => .readKnown rfl ?_
  refine (Node.finds_readNested Node.maxLevels p rest).withValue
    (fun r => { e with params := r :: e.params }) (fun q hq => ?_) fun err he => ⟨err, ?_⟩
  · rw [hq]
  · rw [he]

theorem foldl_addParam (ps : List Node) (e : Envelope) :
    ps.foldl (fun e p => { e with params := p :: e.params }) e =
      { e with params := ps.reverse ++ e.params } := by
  induction ps generalizing e with
  | nil => rfl
  | cons p ps ih =>
    rw [List.foldl_cons, ih, List.reverse_cons, List.append_assoc, List.singleton_append]

theorem turn_turn (e : Envelope) : e.turn.turn = e := by
  simp only [turn, List.reverse_reverse]

/-- **Envelopes are read back.** -/
theorem decode_encode (e : Envelope) :
    (e.Readable → decode e.encode = .ok e) ∧
      (¬e.Readable → ∃ err, decode e.encode = .error err) := by
  have hall := (passes_name e.name []).append (Passes.flatMap passes_param e.params ⟨e.name, []⟩)
  rw [foldl_addParam] at hall
  have hread := (hall.iff (⟨fun h => ⟨h.1, h.2⟩, fun h => ⟨h.1, h.2⟩⟩ : _ ↔ e.Readable)).readMessage
  rw [List.append_nil] at hread
  constructor
  · intro hok
    have h : readMessage readField empty e.encode = .ok e.turn := hread.1 hok
    rw [decode, h, Except.map, turn_turn]
  · intro hok
    obtain ⟨err, he⟩ := hread.2 hok
    have h : readMessage readField empty e.encode = .error err := he
    exact ⟨err, by rw [decode, h, Except.map]⟩

theorem readable_of_length {e : Envelope} (hsize : e.encode.length < UInt64.size)
    (hdepth : ∀ p ∈ e.params, p.depth < Node.maxLevels) : e.Readable where
  name := by
    by_cases h : e.name.isEmpty
    · rw [String.isEmpty_iff] at h
      rw [h]
      decide
    · simp only [encode, encodeName, if_neg h, Node.delimited, List.length_append] at hsize
      omega
  params p hp := by
    -- the bytes of a parameter are a part of those of all parameters
    have hparam : p.encode.length ≤ (encodeParams e.params).length := by
      have hmem : paramKey.encode ++ Node.delimited p.encode ∈
          e.params.map fun p => paramKey.encode ++ Node.delimited p.encode := List.mem_map_of_mem hp
      have hle := (List.sublist_flatten_of_mem hmem).length_le
      rw [List.length_append, Node.delimited, List.length_append] at hle
      rw [encodeParams, List.flatMap_def]
      omega
    have hlt : p.encode.length < UInt64.size := by
      simp only [encode, List.length_append] at hsize
      omega
    exact ⟨hlt, Node.fits_of_length hlt, hdepth p hp⟩

end NamedQuery.Wire.Envelope
