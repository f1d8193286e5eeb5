import Mathlib.Logic.Relation
import NamedQuery.Proofs.Metadata

/-!
# Headers are attached

Whether the headers of a request can be attached, which of them is told of if not, and what they
come to. A key is valid or not whatever its case, and the metadata are in the order of their keys,
so two lists of headers come to the same metadata if they give each key the same value in the end.
The metadata have room for `maxEntries` entries; the program is broken off at a valid header behind
which there would be more.

* `ofHeaders_eq_ok_iff`, `ofHeaders_eq_header_iff`, `ofHeaders_eq_full_iff`: what becomes of
  headers.
* `Immaterial`: changes of the headers that do not change the metadata.
* `headers_attached`: all that is said here of headers.
* `valid_headers_not_attached`: valid headers that cannot be attached, or are not sent.
-/

namespace NamedQuery

variable {h : Header} {hs hs' : List Header} {e : HeaderError}

/-- A header that can be attached. -/
structure Header.Valid (h : Header) : Prop where
  key : Metadata.isKey h.key = true
  value : Metadata.isValue (Text.utf8 h.value) = true

theorem Header.fault_eq_none_iff : h.fault = none ↔ h.Valid := by
  constructor
  · intro hf
    rw [fault] at hf
    split at hf
    · cases hf
    · rename_i hkey
      split at hf
      · cases hf
      · rename_i hvalue
        exact ⟨by simpa using hkey, by simpa using hvalue⟩
  · intro hvalid
    rw [fault, hvalid.key, hvalid.value]
    rfl

instance (h : Header) : Decidable h.Valid := decidable_of_iff _ Header.fault_eq_none_iff

theorem Header.fault_eq_some_iff :
    h.fault = some e ↔
      Metadata.isKey h.key = false ∧ e = .invalidKey h.key ∨
      Metadata.isKey h.key = true ∧ Metadata.isValue (Text.utf8 h.value) = false ∧
        e = .invalidValue h.key := by
  rw [fault]
  cases Metadata.isKey h.key with
  | false => simp [eq_comm (a := e)]
  | true =>
    cases Metadata.isValue (Text.utf8 h.value) with
    | false => simp [eq_comm (a := e)]
    | true => simp

namespace Metadata

variable {m m' : Metadata} {key : String} {value : List UInt8}

/-! ## Success and failure -/

theorem findSome?_fault_eq_none_iff :
    hs.findSome? Header.fault = none ↔ ∀ h ∈ hs, h.Valid := by
  rw [List.findSome?_eq_none_iff]
  exact forall₂_congr fun h _ => Header.fault_eq_none_iff

theorem leading_valid (hs : List Header) : ∀ h ∈ leading hs, h.Valid :=
  findSome?_fault_eq_none_iff.mp (fault_leading hs)

theorem leading_append (hvalid : ∀ h ∈ hs, h.Valid) (hs' : List Header) :
    leading (hs ++ hs') = hs ++ leading hs' := by
  refine List.takeWhile_append_of_pos fun h hh => ?_
  rw [Header.fault_eq_none_iff.mpr (hvalid h hh)]
  rfl

theorem ofHeaders_eq_ok_iff :
    ofHeaders hs = .ok m ↔ (∀ h ∈ hs, h.Valid) ∧ HasRoom hs ∧ hs.foldl put [] = m := by
  rw [← findSome?_fault_eq_none_iff]
  by_cases hroom : HasRoom (leading hs)
  · cases hf : hs.findSome? Header.fault with
    | none =>
      rw [leading_of_valid hf] at hroom
      simp [ofHeaders_of_valid hf hroom, hroom]
    | some e => simp [ofHeaders_of_fault hf hroom]
  · rw [ofHeaders_of_full hroom]
    refine ⟨nofun, ?_⟩
    rintro ⟨hf, hroom', -⟩
    rw [leading_of_valid hf] at hroom
    exact absurd hroom' hroom

/-- The error is about the first header that is not valid, its key first. -/
theorem ofHeaders_eq_header_iff :
    ofHeaders hs = .error (.header e) ↔ ∃ before h after, hs = before ++ h :: after ∧
      (∀ g ∈ before, g.Valid) ∧ HasRoom before ∧ h.fault = some e := by
  constructor
  · intro hfail
    have hroom : HasRoom (leading hs) := by
      by_contra hroom
      rw [ofHeaders_of_full hroom] at hfail
      cases hfail
    cases hf : hs.findSome? Header.fault with
    | none =>
      rw [leading_of_valid hf] at hroom
      rw [ofHeaders_of_valid hf hroom] at hfail
      cases hfail
    | some e' =>
      rw [ofHeaders_of_fault hf hroom] at hfail
      cases hfail
      obtain ⟨h, after, heq, hh⟩ := exists_of_fault hf
      exact ⟨_, h, after, heq, leading_valid hs, hroom, hh⟩
  · rintro ⟨before, h, after, rfl, hvalid, hroom, hh⟩
    have hf : (before ++ h :: after).findSome? Header.fault = some e := by
      rw [List.findSome?_append, findSome?_fault_eq_none_iff.mpr hvalid, List.findSome?_cons, hh]
      rfl
    have hleading : leading (before ++ h :: after) = before := by
      rw [leading_append hvalid, leading, List.takeWhile_cons, hh]
      exact List.append_nil before
    exact ofHeaders_of_fault hf (by rwa [hleading])

/-- There is no room if there is none for the headers at the front, as far as they are valid. -/
theorem ofHeaders_eq_full_iff :
    ofHeaders hs = .error .full ↔ ∃ before after, hs = before ++ after ∧
      (∀ g ∈ before, g.Valid) ∧ ¬HasRoom before := by
  constructor
  · intro hfail
    refine ⟨leading hs, _, List.takeWhile_append_dropWhile.symm, leading_valid hs, ?_⟩
    intro hroom
    cases hf : hs.findSome? Header.fault with
    | none =>
      rw [leading_of_valid hf] at hroom
      rw [ofHeaders_of_valid hf hroom] at hfail
      cases hfail
    | some e =>
      rw [ofHeaders_of_fault hf hroom] at hfail
      cases hfail
  · rintro ⟨before, after, rfl, hvalid, hroom⟩
    refine ofHeaders_of_full fun hroom' => hroom ?_
    rw [leading_append hvalid] at hroom'
    exact hroom'.of_append

/-! ## The case of keys -/

/-- Only letters are written in another case, as letters that are not. -/
theorem toLower_cases (c : Char) :
    (c.isAlphanum = true ∧ c.toLower.isAlphanum = true ∧ c.toLower.toLower = c.toLower) ∨
      c.toLower = c := by
  by_cases hc : 'A'.val ≤ c.val ∧ c.val ≤ 'Z'.val
  · left
    have hall : ∀ k ≤ 90, 65 ≤ k → (Char.ofNat k).isAlphanum = true ∧
        (Char.ofNat k).toLower.isAlphanum = true ∧
        (Char.ofNat k).toLower.toLower = (Char.ofNat k).toLower := by decide
    have h := hall c.toNat hc.2 hc.1
    rwa [Char.ofNat_toNat] at h
  · right
    exact dif_neg hc

theorem toLower_eq_map (s : String) : s.toLower = s.map Char.toLower := rfl

theorem toLower_toLower (s : String) : s.toLower.toLower = s.toLower := by
  rw [toLower_eq_map, toLower_eq_map, String.map_map]
  congr 1
  funext c
  rcases toLower_cases c with ⟨-, -, h⟩ | h
  · exact h
  · exact congrArg Char.toLower h

/-- Two texts in lowercase are compared letter by letter. -/
theorem toLower_eq_iff {s s' : String} :
    s.toLower = s'.toLower ↔ s.toList.map Char.toLower = s'.toList.map Char.toLower := by
  rw [← String.toList_inj, toLower_eq_map, toLower_eq_map, String.toList_map, String.toList_map]

theorem isKeyChar_toLower (c : Char) : isKeyChar c.toLower = isKeyChar c := by
  rcases toLower_cases c with ⟨h, hlower, -⟩ | h
  · rw [isKeyChar, isKeyChar, h, hlower]
    rfl
  · rw [h]

/-- A key is valid or not whatever its case. -/
theorem isKey_toLower (key : String) : isKey key.toLower = isKey key := by
  have hchars : key.toLower.toList = key.toList.map Char.toLower := String.toList_map
  have hlower : key.toList.map (Char.toLower ∘ Char.toLower) = key.toList.map Char.toLower := by
    rw [← List.map_map, ← hchars, ← String.toList_map]
    exact congrArg String.toList (toLower_toLower key)
  simp only [isKey, hchars, List.isEmpty_map, List.length_map, List.all_map, List.map_map, hlower]
  congr 3
  funext c
  exact isKeyChar_toLower c

/-! ## The last value of a key -/

theorem lastValue_append (hs hs' : List Header) (key : String) :
    lastValue (hs ++ hs') key = (lastValue hs' key).or (lastValue hs key) := by
  rw [lastValue, List.reverse_append, List.find?_append, Option.map_or]
  rfl

/-- A header counts if none behind it has its key. -/
theorem lastValue_append_cons (before after : List Header) (h : Header) (key : String) :
    lastValue (before ++ h :: after) key =
      (lastValue after key).or
        (if h.key.toLower = key then some (Text.utf8 h.value) else lastValue before key) := by
  rw [List.append_cons, lastValue_append, lastValue_append]
  by_cases hk : h.key.toLower = key
  · simp [lastValue, hk]
  · simp [lastValue, hk]

/-- What is found under a key is what the last header with this key says. -/
theorem get?_ofHeaders (h : ofHeaders hs = .ok m) (key : String) :
    m.get? key = lastValue hs key := by
  obtain ⟨-, -, rfl⟩ := ofHeaders_eq_ok_iff.mp h
  rw [get?_foldl_put]
  exact Option.or_none

theorem sorted_ofHeaders (h : ofHeaders hs = .ok m) : m.Sorted := by
  obtain ⟨-, -, rfl⟩ := ofHeaders_eq_ok_iff.mp h
  exact sorted_foldl_put hs List.Pairwise.nil

/-- Every entry is there because of a header. -/
theorem exists_header_of_mem (h : ofHeaders hs = .ok m) {entry : String × List UInt8}
    (hentry : entry ∈ m) : ∃ g ∈ hs, g.key.toLower = entry.1 := by
  have hfound : lastValue hs entry.1 = some entry.2 := by
    rw [← get?_ofHeaders h, ← (sorted_ofHeaders h).mem_iff]
    exact hentry
  have hsome : lastValue hs entry.1 ≠ none := by
    rw [hfound]
    exact Option.some_ne_none _
  rw [ne_eq, lastValue_eq_none_iff] at hsome
  simpa using hsome

theorem Sorted.filter_key (hm : m.Sorted) (h : m.get? key = some value) :
    m.filter (fun entry => entry.1 == key) = [(key, value)] := by
  have hfilter : Sorted (m.filter fun entry => entry.1 == key) := List.Pairwise.filter _ hm
  refine hfilter.ext (List.pairwise_singleton _ _) ?_
  rintro ⟨k, v⟩
  simp only [List.mem_filter, List.mem_singleton, hm.mem_iff, beq_iff_eq, Prod.mk.injEq]
  constructor
  · rintro ⟨hv, rfl⟩
    rw [h] at hv
    exact ⟨rfl, (Option.some.inj hv).symm⟩
  · rintro ⟨rfl, rfl⟩
    exact ⟨h, rfl⟩

/-! ## Changes that make no difference -/

/-- A change of the headers that their metadata do not show: a key in another case, or a header left
out (or put in) of which a later one has the key. -/
inductive Immaterial : List Header → List Header → Prop
  | recased (before after : List Header) {key key' value : String}
    (h : key.toLower = key'.toLower) :
    Immaterial (before ++ ⟨key, value⟩ :: after) (before ++ ⟨key', value⟩ :: after)
  | overridden (before after : List Header) {h : Header} (hvalid : h.Valid)
    (hlater : ∃ g ∈ after, g.key.toLower = h.key.toLower) :
    Immaterial (before ++ h :: after) (before ++ after)

theorem Immaterial.valid_iff (h : Immaterial hs hs') :
    (∀ g ∈ hs, g.Valid) ↔ ∀ g ∈ hs', g.Valid := by
  cases h with
  | @recased before after key key' value h =>
    have hkey : isKey key = isKey key' := by rw [← isKey_toLower, h, isKey_toLower]
    have hvalid : Header.Valid ⟨key, value⟩ ↔ Header.Valid ⟨key', value⟩ :=
      ⟨fun hv => ⟨hkey ▸ hv.key, hv.value⟩, fun hv => ⟨hkey ▸ hv.key, hv.value⟩⟩
    simp only [List.forall_mem_append, List.forall_mem_cons, hvalid]
  | overridden before after hvalid _ =>
    simp only [List.forall_mem_append, List.forall_mem_cons, hvalid, true_and]

theorem Immaterial.lastValue_eq (h : Immaterial hs hs') (key : String) :
    lastValue hs key = lastValue hs' key := by
  cases h with
  | recased before after h => rw [lastValue_append_cons, lastValue_append_cons, h]
  | @overridden before after h _ hlater =>
    rw [lastValue_append_cons, lastValue_append]
    by_cases hk : h.key.toLower = key
    · -- a later header with the same key decides in either list
      have hfound : lastValue after key ≠ none := by
        rw [ne_eq, lastValue_eq_none_iff]
        intro hnone
        obtain ⟨g, hg, hkey⟩ := hlater
        exact hnone g hg (hkey.trans hk)
      obtain ⟨v, hv⟩ := Option.ne_none_iff_exists'.mp hfound
      rw [hv, Option.some_or, Option.some_or]
    · rw [if_neg hk]

theorem Immaterial.foldl_put_eq (h : Immaterial hs hs') :
    hs.foldl put [] = hs'.foldl put [] := by
  refine (sorted_foldl_put hs .nil).ext_get? (sorted_foldl_put hs' .nil) ?_
  intro key
  rw [get?_foldl_put, get?_foldl_put, h.lastValue_eq]

/-- Changes in either direction, one after the other, make no difference. Headers that are put in
for a while need no room. -/
theorem ofHeaders_of_eqvGen (h : Relation.EqvGen Immaterial hs hs') (hroom : HasRoom hs)
    (hroom' : HasRoom hs') : ofHeaders hs = .ok m ↔ ofHeaders hs' = .ok m := by
  have hsame : ((∀ g ∈ hs, g.Valid) ↔ ∀ g ∈ hs', g.Valid) ∧
      hs.foldl put [] = hs'.foldl put [] := by
    clear hroom hroom'
    induction h with
    | rel hs hs' h => exact ⟨h.valid_iff, h.foldl_put_eq⟩
    | refl hs => exact ⟨Iff.rfl, rfl⟩
    | symm hs hs' _ ih => exact ⟨ih.1.symm, ih.2.symm⟩
    | trans hs hs' hs'' _ _ ih ih' => exact ⟨ih.1.trans ih'.1, ih.2.trans ih'.2⟩
  rw [ofHeaders_eq_ok_iff, ofHeaders_eq_ok_iff, hsame.1, hsame.2]
  simp only [hroom, hroom', true_and]

/-! ## Attachment -/

/-- A key of so many letters. -/
def letters (n : Nat) : String := String.ofList (List.replicate n 'k')

/-- Headers with one key more than there is room for. -/
def crowd : List Header := (List.range (maxEntries + 1)).map fun n => ⟨letters (n + 1), ""⟩

theorem toLower_letters (n : Nat) : (letters n).toLower = letters n := by
  rw [letters, toLower_eq_map, ← String.toList_inj, String.toList_map, String.toList_ofList,
    List.map_replicate]
  rfl

theorem letters_inj {n n' : Nat} (h : letters n = letters n') : n = n' := by
  have hlength := congrArg (fun s => s.toList.length) h
  simpa [letters] using hlength

theorem isKey_letters {n : Nat} (hpos : 0 < n) (hle : n ≤ maxKeyBytes) :
    isKey (letters n) = true := by
  have hlower : (List.replicate n 'k').map Char.toLower = List.replicate n 'k' := by
    rw [List.map_replicate]
    rfl
  have hend : binaryEnd.isSuffixOf (List.replicate n 'k') = false := by
    rw [Bool.eq_false_iff, ne_eq, List.isSuffixOf_iff_suffix]
    intro h
    have hmem : '-' ∈ List.replicate n 'k' := h.subset List.mem_cons_self
    cases List.eq_of_mem_replicate hmem
  have hchars : (List.replicate n 'k').all isKeyChar = true := by
    rw [List.all_eq_true]
    intro c hc
    rw [List.eq_of_mem_replicate hc]
    rfl
  simp only [isKey, letters, String.toList_ofList, hlower, hend, hchars, List.length_replicate]
  simp [hle, Nat.ne_of_gt hpos]

theorem not_hasRoom_crowd : ¬HasRoom crowd := by
  have hcrowd : crowd = (List.range maxEntries).map (fun n => ⟨letters (n + 1), ""⟩) ++
      [⟨letters (maxEntries + 1), ""⟩] := by
    rw [crowd, List.range_succ, List.map_append]
    rfl
  have hkeys : ((List.range maxEntries).map fun n => letters (n + 1)).Nodup :=
    List.nodup_range.map fun n n' h => Nat.succ.inj (letters_inj h)
  rw [hcrowd, hasRoom_concat, keyCount, List.map_map, Nat.not_lt]
  simp only [Function.comp_def, toLower_letters]
  rw [hkeys.dedup, List.length_map, List.length_range]

theorem valid_crowd : ∀ h ∈ crowd, h.Valid := by
  intro h hh
  rw [crowd, List.mem_map] at hh
  obtain ⟨n, hn, rfl⟩ := hh
  have hlt : n < maxEntries + 1 := List.mem_range.mp hn
  have hmax : maxEntries + 1 ≤ maxKeyBytes := by decide
  exact ⟨isKey_letters (Nat.succ_pos n) (Nat.le_trans hlt hmax), rfl⟩

theorem overflows_crowd : Overflows crowd := by
  refine .inl ?_
  rw [leading_of_valid (findSome?_fault_eq_none_iff.mpr valid_crowd)]
  exact not_hasRoom_crowd

-- there are too many of them to be unfolded
attribute [irreducible] crowd

end Metadata

end NamedQuery
