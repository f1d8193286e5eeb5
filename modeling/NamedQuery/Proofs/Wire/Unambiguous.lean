import Mathlib.Tactic.SplitIfs
import NamedQuery.Proofs.Wire.Conversion
import NamedQuery.Proofs.Wire.Envelope
import NamedQuery.Request

/-!
# Different messages have different bytes

Bytes can be cut in one way only: a varint ends with its first byte that has no high bit, a
delimited part is as long as it says, and a field that is left out cannot be mistaken for the next
one, whose number is higher. So no two messages have the same bytes. Nothing here depends on what a
reader accepts, and so the nesting has no limit.

* `optional_append_inj`, `defaulted_append_inj`, `repeated_inj`: fields that occur at most once, or
  unless they hold a default, and fields that occur any number of times.
* `Node.encode_injective`, `Envelope.encode_injective`: whole messages.
* `same_bytes_iff_same_query`: what this says of values and of requests.
-/

namespace NamedQuery

namespace Wire

variable {rest rest' : List UInt8}

/-! ## Parts with a mark of their end -/

theorem Varint.encode_append_inj {m n : Nat} (h : encode m ++ rest = encode n ++ rest') :
    m = n ∧ rest = rest' := by
  induction m using Nat.strongRecOn generalizing n with
  | ind m ih =>
    rcases Nat.lt_or_ge m 128 with hm | hm <;> rcases Nat.lt_or_ge n 128 with hn | hn
    · rw [encode_of_lt hm, encode_of_lt hn, List.singleton_append, List.singleton_append] at h
      obtain ⟨hbyte, hrest⟩ := List.cons.inj h
      exact ⟨group_inj (by omega) (by omega) hbyte, hrest⟩
    · -- the last byte of the one has no high bit, the first byte of the other has
      rw [encode_of_lt hm, encode_of_le hn, List.singleton_append, List.cons_append] at h
      have hgroup := group_inj (by omega) (by omega) (List.cons.inj h).1
      omega
    · rw [encode_of_le hm, encode_of_lt hn, List.singleton_append, List.cons_append] at h
      have hgroup := group_inj (by omega) (by omega) (List.cons.inj h).1
      omega
    · rw [encode_of_le hm, encode_of_le hn, List.cons_append, List.cons_append] at h
      obtain ⟨hbyte, hmore⟩ := List.cons.inj h
      have hgroup := group_inj (by omega) (by omega) hbyte
      obtain ⟨hdiv, hrest⟩ := ih (m / 128) (by omega) hmore
      exact ⟨by omega, hrest⟩

theorem Key.encode_append_inj {k k' : Key} (h : k.encode ++ rest = k'.encode ++ rest') :
    k = k' ∧ rest = rest' := by
  obtain ⟨hnumber, hrest⟩ := Varint.encode_append_inj h
  have hlt := k.wireType.code_lt
  have hlt' := k'.wireType.code_lt
  have hfield : k.field = k'.field := by omega
  have hcode : k.wireType.code = k'.wireType.code := by omega
  have htype : k.wireType = k'.wireType := by
    have hof := congrArg WireType.ofCode? hcode
    rw [WireType.ofCode?_code, WireType.ofCode?_code] at hof
    exact Option.some.inj hof
  refine ⟨?_, hrest⟩
  obtain ⟨field, wireType⟩ := k
  cases hfield
  cases htype
  rfl

theorem delimited_append_inj {bytes bytes' : List UInt8}
    (h : Node.delimited bytes ++ rest = Node.delimited bytes' ++ rest') :
    bytes = bytes' ∧ rest = rest' := by
  rw [Node.delimited, Node.delimited, List.append_assoc, List.append_assoc] at h
  obtain ⟨hlength, hbytes⟩ := Varint.encode_append_inj h
  exact List.append_inj hbytes hlength

/-! ## Fields -/

/-- Whether there is no field, or the first has a number above `n`. -/
def StartsAbove (n : Nat) (bytes : List UInt8) : Prop :=
  bytes = [] ∨ ∃ k rest, bytes = Key.encode k ++ rest ∧ n < k.field

theorem StartsAbove.ne_encode {n : Nat} {bytes : List UInt8} {k : Key} (h : StartsAbove n bytes)
    (hk : k.field ≤ n) : bytes ≠ k.encode ++ rest := by
  intro heq
  rcases h with rfl | ⟨k', rest', rfl, hlt⟩
  · exact absurd (List.append_eq_nil_iff.mp heq.symm).1 (Varint.encode_ne_nil _)
  · obtain ⟨rfl, -⟩ := Key.encode_append_inj heq
    omega

section Optional

variable {α : Type} {key : α → Key} {content : α → List UInt8} {n : Nat}

/-- A field that occurs at most once. -/
def optional (key : α → Key) (content : α → List UInt8) : Option α → List UInt8
  | none => []
  | some a => (key a).encode ++ content a

theorem StartsAbove.optional {a : Option α} (hkey : ∀ a, n < (key a).field)
    (hrest : StartsAbove n rest) : StartsAbove n (optional key content a ++ rest) := by
  cases a with
  | none => exact hrest
  | some a => exact .inr ⟨key a, content a ++ rest, List.append_assoc .., hkey a⟩

/-- What a field that occurs at most once holds can be told from the bytes, if the fields behind it
have higher numbers. -/
theorem optional_append_inj {a a' : Option α} (hkey : ∀ a, (key a).field ≤ n)
    (hcontent : ∀ {a a' rest rest'}, key a = key a' → content a ++ rest = content a' ++ rest' →
      a = a' ∧ rest = rest')
    (hrest : StartsAbove n rest) (hrest' : StartsAbove n rest')
    (h : optional key content a ++ rest = optional key content a' ++ rest') :
    a = a' ∧ rest = rest' := by
  cases a with
  | none =>
    cases a' with
    | none => exact ⟨rfl, h⟩
    | some a' =>
      rw [optional, optional, List.nil_append, List.append_assoc] at h
      exact absurd h (hrest.ne_encode (hkey a'))
  | some a =>
    cases a' with
    | none =>
      rw [optional, optional, List.nil_append, List.append_assoc] at h
      exact absurd h.symm (hrest'.ne_encode (hkey a))
    | some a' =>
      rw [optional, optional, List.append_assoc, List.append_assoc] at h
      obtain ⟨hk, hcontents⟩ := Key.encode_append_inj h
      obtain ⟨rfl, hrests⟩ := hcontent hk hcontents
      exact ⟨rfl, hrests⟩

/-- The same of a field that is left out if it holds `d`. -/
theorem defaulted_append_inj [DecidableEq α] {k : Key} {d a a' : α}
    (hcontent : ∀ {a a' rest rest'}, content a ++ rest = content a' ++ rest' →
      a = a' ∧ rest = rest')
    (hrest : StartsAbove k.field rest) (hrest' : StartsAbove k.field rest')
    (h : optional (fun _ => k) content (if a = d then none else some a) ++ rest =
      optional (fun _ => k) content (if a' = d then none else some a') ++ rest') :
    a = a' ∧ rest = rest' := by
  obtain ⟨hpresent, hrests⟩ :=
    optional_append_inj (fun _ => Nat.le_refl _) (fun _ => hcontent) hrest hrest' h
  refine ⟨?_, hrests⟩
  split_ifs at hpresent with ha ha'
  · rw [ha, ha']
  · exact Option.some.inj hpresent

end Optional

section Repeated

variable {α : Type} {key : Key} {encode : α → List UInt8} {as as' : List α}

theorem StartsAbove.repeated {n : Nat} (hkey : n < key.field) :
    StartsAbove n (as.flatMap fun a => key.encode ++ Node.delimited (encode a)) := by
  cases as with
  | nil => exact .inl rfl
  | cons a as => exact .inr ⟨key, _, by rw [List.flatMap_cons, List.append_assoc], hkey⟩

/-- What repeated fields hold can be told from the bytes. -/
theorem repeated_inj (hencode : ∀ a ∈ as, ∀ a', encode a = encode a' → a = a')
    (h : (as.flatMap fun a => key.encode ++ Node.delimited (encode a)) =
      as'.flatMap fun a => key.encode ++ Node.delimited (encode a)) : as = as' := by
  have hne (a : α) (more : List UInt8) : key.encode ++ Node.delimited (encode a) ++ more ≠ [] := by
    intro hnil
    rw [List.append_assoc] at hnil
    exact Varint.encode_ne_nil _ (List.append_eq_nil_iff.mp hnil).1
  induction as generalizing as' with
  | nil =>
    cases as' with
    | nil => rfl
    | cons a' as' => exact absurd h.symm (hne a' _)
  | cons a as ih =>
    cases as' with
    | nil => exact absurd h (hne a _)
    | cons a' as' =>
      rw [List.flatMap_cons, List.flatMap_cons, List.append_assoc, List.append_assoc] at h
      obtain ⟨-, hitems⟩ := Key.encode_append_inj h
      obtain ⟨hfirst, hothers⟩ := delimited_append_inj hitems
      rw [List.forall_mem_cons] at hencode
      rw [hencode.1 a' hfirst, ih hencode.2 hothers]

end Repeated

/-! ## Messages -/

namespace Node

theorem encodeDiscriminant_eq_optional (t : Int32) :
    encodeDiscriminant t = optional (fun _ => discriminantKey)
      (fun t => Varint.encode t.toInt64.toUInt64.toNat) (if t = 0 then none else some t) := by
  rw [encodeDiscriminant]
  split <;> rfl

theorem encodePayload_eq_optional (p : Option Payload) :
    encodePayload p = optional payloadKey encodeContent p := by
  cases p <;> rfl

theorem field_payloadKey (p : Payload) : 1 < (payloadKey p).field ∧ (payloadKey p).field ≤ 4 := by
  cases p <;> simp [payloadKey]

theorem encodeContent_append_inj {p p' : Payload} {rest rest' : List UInt8}
    (hkey : payloadKey p = payloadKey p')
    (h : encodeContent p ++ rest = encodeContent p' ++ rest') : p = p' ∧ rest = rest' := by
  cases p with
  | bool b =>
    cases p' with
    | bool b' =>
      have hbool : ∀ b b' : Bool,
          (if b then (1 : UInt8) else 0) = (if b' then 1 else 0) → b = b' := by decide
      obtain ⟨hbyte, hrest⟩ := List.cons.inj h
      exact ⟨congrArg Payload.bool (hbool b b' hbyte), hrest⟩
    | _ => cases hkey
  | uint64 n =>
    cases p' with
    | uint64 n' =>
      obtain ⟨hnat, hrest⟩ := Varint.encode_append_inj h
      exact ⟨congrArg Payload.uint64 (UInt64.toNat_inj.mp hnat), hrest⟩
    | _ => cases hkey
  | bytes raw =>
    cases p' with
    | bytes raw' =>
      obtain ⟨hraw, hrest⟩ := delimited_append_inj h
      exact ⟨congrArg Payload.bytes hraw, hrest⟩
    | _ => cases hkey

theorem startsAbove_encodeChildren {n : Nat} (cs : List Node) (hn : n < childKey.field) :
    StartsAbove n (encodeChildren cs) := by
  rw [encodeChildren_eq_flatMap]
  exact .repeated hn

theorem startsAbove_encodePayload (p : Option Payload) (cs : List Node) :
    StartsAbove discriminantKey.field (encodePayload p ++ encodeChildren cs) := by
  rw [encodePayload_eq_optional]
  exact .optional (fun p => (field_payloadKey p).1) (startsAbove_encodeChildren cs (by decide))

theorem encodeDiscriminant_append_inj {t t' : Int32}
    (hrest : StartsAbove discriminantKey.field rest)
    (hrest' : StartsAbove discriminantKey.field rest')
    (h : encodeDiscriminant t ++ rest = encodeDiscriminant t' ++ rest') :
    t = t' ∧ rest = rest' := by
  have hcontent {t t' : Int32} {rest rest' : List UInt8}
      (h : Varint.encode t.toInt64.toUInt64.toNat ++ rest =
        Varint.encode t'.toInt64.toUInt64.toNat ++ rest') : t = t' ∧ rest = rest' := by
    obtain ⟨hnat, hrests⟩ := Varint.encode_append_inj h
    rw [← discriminantOf_toNat t, hnat, discriminantOf_toNat]
    exact ⟨rfl, hrests⟩
  rw [encodeDiscriminant_eq_optional, encodeDiscriminant_eq_optional] at h
  exact defaulted_append_inj hcontent hrest hrest' h

theorem encodePayload_append_inj {p p' : Option Payload} (hrest : StartsAbove 4 rest)
    (hrest' : StartsAbove 4 rest') (h : encodePayload p ++ rest = encodePayload p' ++ rest') :
    p = p' ∧ rest = rest' := by
  rw [encodePayload_eq_optional, encodePayload_eq_optional] at h
  exact optional_append_inj (fun p => (field_payloadKey p).2) encodeContent_append_inj
    hrest hrest' h

/-- **Different nodes have different bytes**, however deep they are. -/
theorem encode_injective {w w' : Node} (h : w.encode = w'.encode) : w = w' := by
  induction w using Node.induction generalizing w' with
  | mk t p cs ih =>
    obtain ⟨t', p', cs'⟩ := w'
    rw [encode, encode, List.append_assoc, List.append_assoc] at h
    obtain ⟨rfl, hbehind⟩ := encodeDiscriminant_append_inj (startsAbove_encodePayload p cs)
      (startsAbove_encodePayload p' cs') h
    obtain ⟨rfl, hchildren⟩ := encodePayload_append_inj
      (startsAbove_encodeChildren cs (by decide)) (startsAbove_encodeChildren cs' (by decide))
      hbehind
    rw [encodeChildren_eq_flatMap, encodeChildren_eq_flatMap] at hchildren
    rw [repeated_inj (fun c hc c' => ih c hc) hchildren]

theorem ofValue_injective {v v' : Value} (h : ofValue v = ofValue v') : v = v' := by
  have hvalue := congrArg toValue h
  rw [toValue_ofValue, toValue_ofValue] at hvalue
  exact Except.ok.inj hvalue

end Node

namespace Envelope

theorem encodeName_eq_optional (name : String) :
    encodeName name = optional (fun _ => nameKey) (fun name => Node.delimited (Text.utf8 name))
      (if name = "" then none else some name) := by
  rw [encodeName]
  simp only [String.isEmpty_iff]
  split <;> rfl

theorem encodeName_append_inj {name name' : String} (hrest : StartsAbove nameKey.field rest)
    (hrest' : StartsAbove nameKey.field rest')
    (h : encodeName name ++ rest = encodeName name' ++ rest') : name = name' ∧ rest = rest' := by
  have hcontent {s s' : String} {rest rest' : List UInt8}
      (h : Node.delimited (Text.utf8 s) ++ rest = Node.delimited (Text.utf8 s') ++ rest') :
      s = s' ∧ rest = rest' := by
    obtain ⟨htext, hrests⟩ := delimited_append_inj h
    exact ⟨Text.utf8_injective htext, hrests⟩
  rw [encodeName_eq_optional, encodeName_eq_optional] at h
  exact defaulted_append_inj hcontent hrest hrest' h

/-- **Different envelopes have different bytes.** -/
theorem encode_injective {e e' : Envelope} (h : e.encode = e'.encode) : e = e' := by
  obtain ⟨name, params⟩ := e
  obtain ⟨name', params'⟩ := e'
  obtain ⟨hname, hparams⟩ := encodeName_append_inj (.repeated (by decide)) (.repeated (by decide)) h
  have hsame : params = params' := repeated_inj (fun _ _ _ => Node.encode_injective) hparams
  rw [hsame, show name = name' from hname]

end Envelope

end Wire

/-- **No two queries are sent as the same bytes**, and no two values are. The nesting of the values
has no limit here: it goes for those as well that a reader would refuse. Headers are not part of the
message. -/
theorem Request.same_bytes_iff_same_query :
    (∀ r r' : Request, r.envelope.encode = r'.envelope.encode ↔
      r.name = r'.name ∧ r.params = r'.params) ∧
    ∀ v v' : Value, v.encode = v'.encode ↔ v = v' := by
  refine ⟨fun r r' => ⟨fun h => ?_, fun h => ?_⟩, fun v v' => ⟨fun h => ?_, fun h => ?_⟩⟩
  · have henvelope := Wire.Envelope.encode_injective h
    rw [envelope, envelope, Wire.Envelope.mk.injEq] at henvelope
    obtain ⟨hname, hparams⟩ := henvelope
    exact ⟨hname, (List.map_inj_right fun _ _ => Wire.Node.ofValue_injective).mp hparams⟩
  · rw [envelope, envelope, h.1, h.2]
  · exact Wire.Node.ofValue_injective (Wire.Node.encode_injective h)
  · rw [h]

end NamedQuery
