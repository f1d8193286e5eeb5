import Mathlib.Data.List.Dedup
import Mathlib.Data.List.Induction
import Mathlib.Data.List.TakeWhile
import NamedQuery.Metadata

/-!
# Headers and metadata

What becomes of the headers of a request. The first that is not valid is an error, unless there was
no room for those in front of it; of the headers with one key the last gives the value. The metadata
are in the order of their keys, so they are determined by what is found in them, and there are as
many entries as the headers have different keys.

* `get?_foldl_put`, `get?_sent`: what is found under a key, and still found when it is sent.
* `Sorted`: metadata in the order of their keys.
* `HasRoom`: whether headers find room, and `length_foldl_put`, which counts the entries.
* `ofHeaders_of_valid`, `ofHeaders_of_fault`, `ofHeaders_of_full`: what headers come to.
* `Overflows`: whether there is room for what is sent; `outgoing_of_valid`, `outgoing_of_fault`,
  `outgoing_of_overflow`: what is sent.
-/

namespace NamedQuery

/-- What is wrong with a header: its key, or else its value, or nothing. -/
def Header.fault (h : Header) : Option HeaderError :=
  if !Metadata.isKey h.key then some (.invalidKey h.key)
  else if !Metadata.isValue (Text.utf8 h.value) then some (.invalidValue h.key)
  else none

namespace Metadata

variable {m m' : Metadata} {key : String} {value : List UInt8} {h : Header} {hs hs' : List Header}
  {e : HeaderError}

/-! ## Adding headers -/

/-- The metadata with one more header that is valid. -/
def put (m : Metadata) (h : Header) : Metadata := m.place h.key.toLower (Text.utf8 h.value)

theorem add_of_fault (hf : h.fault = some e) : m.add h = .error (.header e) := by
  rw [Header.fault] at hf
  rw [add]
  split at hf
  · rename_i hkey
    cases hf
    rw [if_pos hkey]
  · rename_i hkey
    split at hf
    · rename_i hvalue
      cases hf
      rw [if_neg hkey, if_pos hvalue]
    · cases hf

theorem add_of_valid (hf : h.fault = none) :
    m.add h = if maxEntries ≤ m.length then .error .full else .ok (m.put h) := by
  rw [Header.fault] at hf
  rw [add]
  split at hf
  · cases hf
  · rename_i hkey
    split at hf
    · cases hf
    · rename_i hvalue
      rw [if_neg hkey, if_neg hvalue]
      rfl

theorem addAll_cons (m : Metadata) (h : Header) (hs : List Header) :
    m.addAll (h :: hs) = (m.add h).bind fun m => m.addAll hs := by
  rw [addAll]
  cases m.add h <;> rfl

theorem addAll_append (m : Metadata) (hs hs' : List Header) :
    m.addAll (hs ++ hs') = (m.addAll hs).bind fun m => m.addAll hs' := by
  induction hs generalizing m with
  | nil => rfl
  | cons h hs ih =>
    rw [List.cons_append, addAll_cons, addAll_cons]
    cases m.add h with
    | error r => rfl
    | ok m => exact ih m

/-! ## Looking up -/

theorem get?_cons (k : String) (v : List UInt8) (m : Metadata) :
    get? ((k, v) :: m) key = if k = key then some v else get? m key := by
  rw [get?, List.find?_cons]
  by_cases h : k = key
  · rw [if_pos h, h, beq_self_eq_true]
    rfl
  · rw [if_neg h, beq_eq_false_iff_ne.mpr h]
    rfl

theorem get?_place (m : Metadata) (k : String) (v : List UInt8) :
    (m.place k v).get? key = if k = key then some v else m.get? key := by
  induction m with
  | nil => rw [place, get?_cons]
  | cons entry rest ih =>
    obtain ⟨k', v'⟩ := entry
    rw [place]
    -- the new entry stands in front of a greater key, in place of an equal one, or further on
    split
    · rw [get?_cons]
    · split
      · rename_i hk
        rw [get?_cons, get?_cons, ← hk]
        split <;> rfl
      · rename_i hk
        rw [get?_cons, get?_cons, ih]
        by_cases hk' : k' = key
        · rw [if_pos hk', if_pos hk', if_neg fun h => hk (h.trans hk'.symm)]
        · rw [if_neg hk', if_neg hk']

/-- The value that the last header with a key gives it. -/
def lastValue (hs : List Header) (key : String) : Option (List UInt8) :=
  (hs.reverse.find? fun h => h.key.toLower == key).map fun h => Text.utf8 h.value

theorem lastValue_eq_none_iff : lastValue hs key = none ↔ ∀ h ∈ hs, h.key.toLower ≠ key := by
  simp [lastValue]

theorem get?_foldl_put (hs : List Header) (m : Metadata) :
    (hs.foldl put m).get? key = (lastValue hs key).or (m.get? key) := by
  induction hs generalizing m with
  | nil => rfl
  | cons h hs ih =>
    rw [List.foldl_cons, ih, put, get?_place, lastValue, lastValue, List.reverse_cons,
      List.find?_append]
    cases hs.reverse.find? fun h => h.key.toLower == key with
    | some found => rfl
    | none =>
      -- no later header has the key, so it is up to this one
      by_cases hk : h.key.toLower = key
      · simp [hk]
      · simp [hk]

/-- Only what is not reserved is sent. -/
theorem get?_sent (m : Metadata) (key : String) :
    m.sent.get? key = if key ∈ reservedKeys then none else m.get? key := by
  induction m with
  | nil => exact (ite_self _).symm
  | cons entry rest ih =>
    obtain ⟨k, v⟩ := entry
    rw [get?_cons, sent, List.filter_cons]
    by_cases hreserved : k ∈ reservedKeys
    · rw [if_neg (by simpa using hreserved)]
      refine ih.trans ?_
      by_cases hk : k = key
      · rw [if_pos (hk ▸ hreserved), if_pos (hk ▸ hreserved)]
      · rw [if_neg hk]
    · rw [if_pos (by simpa using hreserved), get?_cons]
      by_cases hk : k = key
      · rw [if_pos hk, if_pos hk, if_neg (hk ▸ hreserved)]
      · rw [if_neg hk, if_neg hk]
        exact ih

/-! ## The order of the keys -/

/-- Metadata in the order of their keys, no key twice. -/
def Sorted (m : Metadata) : Prop := m.Pairwise fun a b => a.1 < b.1

theorem mem_place {entry : String × List UInt8} (h : entry ∈ m.place key value) :
    entry = (key, value) ∨ entry ∈ m := by
  induction m with
  | nil => exact .inl (List.mem_singleton.mp h)
  | cons first rest ih =>
    obtain ⟨k, v⟩ := first
    rw [place] at h
    split at h
    · exact List.mem_cons.mp h
    · split at h
      · rcases List.mem_cons.mp h with h | h
        · exact .inl h
        · exact .inr (List.mem_cons_of_mem _ h)
      · rcases List.mem_cons.mp h with rfl | h
        · exact .inr List.mem_cons_self
        · rcases ih h with h | h
          · exact .inl h
          · exact .inr (List.mem_cons_of_mem _ h)

theorem Sorted.place (hm : m.Sorted) : (m.place key value).Sorted := by
  induction m with
  | nil => exact List.pairwise_singleton _ _
  | cons first rest ih =>
    obtain ⟨k, v⟩ := first
    obtain ⟨hfirst, hrest⟩ := List.pairwise_cons.mp hm
    rw [Metadata.place]
    split
    · rename_i hlt
      refine List.pairwise_cons.mpr ⟨?_, hm⟩
      intro entry hentry
      rcases List.mem_cons.mp hentry with rfl | hentry
      · exact hlt
      · exact String.lt_trans hlt (hfirst entry hentry)
    · rename_i hnot
      split
      · rename_i heq
        subst heq
        exact List.pairwise_cons.mpr ⟨hfirst, hrest⟩
      · rename_i hne
        refine List.pairwise_cons.mpr ⟨?_, ih hrest⟩
        intro entry hentry
        rcases mem_place hentry with rfl | hentry
        · -- a key that is neither below nor equal is above
          show k < key
          rw [← String.not_le]
          intro hle
          exact hne (String.le_antisymm hle (String.not_lt.mp hnot))
        · exact hfirst entry hentry

theorem sorted_foldl_put (hs : List Header) (hm : m.Sorted) : (hs.foldl put m).Sorted := by
  induction hs generalizing m with
  | nil => exact hm
  | cons h hs ih => exact ih hm.place

/-- In such metadata the entries are what is found. -/
theorem Sorted.mem_iff (hm : m.Sorted) : (key, value) ∈ m ↔ m.get? key = some value := by
  induction m with
  | nil => simp [get?]
  | cons first rest ih =>
    obtain ⟨k, v⟩ := first
    obtain ⟨hfirst, hrest⟩ := List.pairwise_cons.mp hm
    rw [get?_cons, List.mem_cons, ih hrest]
    by_cases hk : k = key
    · subst hk
      -- the key is not found again further on
      have hnone : get? rest k ≠ some value := by
        rw [ne_eq, ← ih hrest]
        intro hmem
        exact String.lt_irrefl k (hfirst _ hmem)
      simp [hnone, eq_comm]
    · have hne : (key, value) ≠ (k, v) := fun h => hk (Prod.mk.inj h).1.symm
      simp [hk, hne]

theorem Sorted.ext (hm : m.Sorted) (hm' : m'.Sorted) (h : ∀ entry, entry ∈ m ↔ entry ∈ m') :
    m = m' := by
  have hnodup {m : Metadata} (hm : m.Sorted) : m.Nodup :=
    hm.imp fun hlt heq => String.ne_of_lt hlt (congrArg Prod.fst heq)
  have hperm := (List.perm_ext_iff_of_nodup (hnodup hm) (hnodup hm')).mpr h
  refine hperm.eq_of_pairwise ?_ hm hm'
  intro a b _ _ hab hba
  exact absurd hba (String.lt_asymm hab)

/-- Such metadata are determined by what is found under each key. -/
theorem Sorted.ext_get? (hm : m.Sorted) (hm' : m'.Sorted) (h : ∀ key, m.get? key = m'.get? key) :
    m = m' :=
  hm.ext hm' fun (key, value) => by rw [hm.mem_iff, hm'.mem_iff, h key]

/-! ## The number of entries -/

/-- How many different keys headers have, whatever their case. -/
def keyCount (hs : List Header) : Nat := (hs.map fun h => h.key.toLower).dedup.length

theorem keyCount_mono (h : hs ⊆ hs') : keyCount hs ≤ keyCount hs' := by
  refine (List.nodup_dedup _).length_le_of_subset fun key hkey => ?_
  rw [List.mem_dedup] at hkey ⊢
  exact List.map_subset _ h hkey

theorem keyCount_le_length (hs : List Header) : keyCount hs ≤ hs.length := by
  have hle := (List.dedup_sublist (hs.map fun h => h.key.toLower)).length_le
  rwa [List.length_map] at hle

/-- There are as many entries as keys under which something is found. -/
theorem Sorted.length_eq (hm : m.Sorted) {keys : List String}
    (h : ∀ key, m.get? key ≠ none ↔ key ∈ keys) : m.length = keys.dedup.length := by
  have hnodup : (m.map Prod.fst).Nodup := by
    rw [List.nodup_iff_pairwise_ne, List.pairwise_map]
    exact hm.imp String.ne_of_lt
  have hperm : (m.map Prod.fst).Perm keys.dedup := by
    refine (List.perm_ext_iff_of_nodup hnodup (List.nodup_dedup keys)).mpr fun key => ?_
    rw [List.mem_dedup, ← h, Option.ne_none_iff_exists']
    simp [← hm.mem_iff]
  rw [← hperm.length_eq, List.length_map]

theorem length_foldl_put (hs : List Header) : (hs.foldl put []).length = keyCount hs := by
  refine (sorted_foldl_put hs List.Pairwise.nil).length_eq fun key => ?_
  rw [get?_foldl_put, show get? [] key = none from rfl, Option.or_none, ne_eq,
    lastValue_eq_none_iff]
  simp

/-- The headers whose keys do not belong to the protocol. -/
def unreserved (hs : List Header) : List Header :=
  hs.filter fun h => !reservedKeys.contains h.key.toLower

theorem length_sent_foldl_put (hs : List Header) :
    (hs.foldl put []).sent.length = keyCount (unreserved hs) := by
  have hsorted : (hs.foldl put []).sent.Sorted :=
    List.Pairwise.filter _ (sorted_foldl_put hs List.Pairwise.nil)
  refine hsorted.length_eq fun key => ?_
  rw [get?_sent, get?_foldl_put, show get? [] key = none from rfl, Option.or_none]
  by_cases hkey : key ∈ reservedKeys
  · rw [if_pos hkey]
    simp only [unreserved, List.mem_map, List.mem_filter]
    refine ⟨fun h => absurd rfl h, ?_⟩
    rintro ⟨h, ⟨-, hfree⟩, rfl⟩
    simp [hkey] at hfree
  · rw [if_neg hkey, ne_eq, lastValue_eq_none_iff]
    simp only [unreserved, List.mem_map, List.mem_filter]
    constructor
    · intro h
      push Not at h
      obtain ⟨g, hg, rfl⟩ := h
      exact ⟨g, ⟨hg, by simpa using hkey⟩, rfl⟩
    · rintro ⟨g, ⟨hg, -⟩, rfl⟩ hnone
      exact hnone g hg rfl

/-! ## Room -/

/-- Whether each of the headers finds room behind those in front of it. That is up to the last: the
keys in front of it must be fewer than there is room for, whether its own is among them or not. -/
def HasRoom (hs : List Header) : Prop := keyCount hs.dropLast < maxEntries

theorem hasRoom_nil : HasRoom [] := by
  rw [HasRoom]
  decide

theorem hasRoom_concat : HasRoom (hs ++ [h]) ↔ keyCount hs < maxEntries := by
  rw [HasRoom, List.dropLast_concat]

theorem HasRoom.of_append (hroom : HasRoom (hs ++ hs')) : HasRoom hs := by
  refine Nat.lt_of_le_of_lt (keyCount_mono ?_) hroom
  cases hs' with
  | nil =>
    rw [List.append_nil]
    exact List.Subset.refl _
  | cons h hs' =>
    rw [List.dropLast_append_cons]
    exact fun g hg => List.mem_append_left _ (List.dropLast_subset hs hg)

/-- So many headers always find room. -/
theorem hasRoom_of_length_le (h : hs.length ≤ maxEntries) : HasRoom hs := by
  have hle := keyCount_le_length hs.dropLast
  have hpos : 0 < maxEntries := by decide
  rw [List.length_dropLast] at hle
  rw [HasRoom]
  omega

/-! ## What headers come to -/

theorem ofHeaders_concat (hs : List Header) (h : Header) :
    ofHeaders (hs ++ [h]) = (ofHeaders hs).bind fun m => m.add h := by
  rw [ofHeaders, addAll_append]
  refine congrArg _ (funext fun m => ?_)
  rw [addAll_cons]
  cases m.add h <;> rfl

theorem findSome?_fault_append (hf : (hs ++ hs').findSome? Header.fault = none) :
    hs.findSome? Header.fault = none ∧ hs'.findSome? Header.fault = none := by
  rwa [List.findSome?_append, Option.or_eq_none_iff] at hf

theorem ofHeaders_of_valid (hf : hs.findSome? Header.fault = none) (hroom : HasRoom hs) :
    ofHeaders hs = .ok (hs.foldl put []) := by
  induction hs using List.reverseRecOn with
  | nil => rfl
  | append_singleton hs h ih =>
    obtain ⟨hfirst, hlast⟩ := findSome?_fault_append hf
    rw [ofHeaders_concat, ih hfirst hroom.of_append]
    show add _ h = _
    rw [add_of_valid (by simpa using hlast), length_foldl_put,
      if_neg (Nat.not_le.mpr (hasRoom_concat.mp hroom)), List.foldl_append]
    rfl

theorem ofHeaders_of_crowd (hf : hs.findSome? Header.fault = none) (hroom : ¬HasRoom hs) :
    ofHeaders hs = .error .full := by
  induction hs using List.reverseRecOn with
  | nil => exact absurd hasRoom_nil hroom
  | append_singleton hs h ih =>
    obtain ⟨hfirst, hlast⟩ := findSome?_fault_append hf
    rw [ofHeaders_concat]
    by_cases hroom' : HasRoom hs
    · -- all others have found room, and filled it
      rw [ofHeaders_of_valid hfirst hroom']
      show add _ h = _
      rw [add_of_valid (by simpa using hlast), length_foldl_put,
        if_pos (Nat.not_lt.mp (mt hasRoom_concat.mpr hroom))]
    · rw [ih hfirst hroom']
      rfl

/-- The headers in front of the first that is not valid. -/
def leading (hs : List Header) : List Header := hs.takeWhile fun h => h.fault.isNone

theorem fault_leading (hs : List Header) : (leading hs).findSome? Header.fault = none := by
  rw [List.findSome?_eq_none_iff]
  intro h hh
  have hvalid : h.fault.isNone = true := 
    List.mem_takeWhile_imp (p := fun h : Header => h.fault.isNone) hh
  exact Option.isNone_iff_eq_none.mp hvalid

theorem leading_of_valid (hf : hs.findSome? Header.fault = none) : leading hs = hs := by
  rw [leading, List.takeWhile_eq_self_iff]
  intro h hh
  exact Option.isNone_iff_eq_none.mpr (List.findSome?_eq_none_iff.mp hf h hh)

/-- If one of the headers is not valid, the first such comes right behind these. -/
theorem exists_of_fault (hf : hs.findSome? Header.fault = some e) :
    ∃ h after, hs = leading hs ++ h :: after ∧ h.fault = some e := by
  induction hs with
  | nil => cases hf
  | cons h hs ih =>
    rw [List.findSome?_cons] at hf
    rw [leading, List.takeWhile_cons]
    cases hh : h.fault with
    | some e' =>
      rw [hh] at hf
      cases hf
      exact ⟨h, hs, rfl, hh⟩
    | none =>
      rw [hh] at hf
      obtain ⟨g, after, heq, hg⟩ := ih hf
      exact ⟨g, after, congrArg (h :: ·) heq, hg⟩

theorem ofHeaders_of_fault (hf : hs.findSome? Header.fault = some e)
    (hroom : HasRoom (leading hs)) : ofHeaders hs = .error (.header e) := by
  obtain ⟨h, after, heq, hh⟩ := exists_of_fault hf
  have hfirst : ofHeaders (leading hs) = _ := ofHeaders_of_valid (fault_leading hs) hroom
  rw [ofHeaders] at hfirst
  rw [ofHeaders, heq, addAll_append, hfirst]
  show addAll _ (h :: after) = _
  rw [addAll_cons, add_of_fault hh]
  rfl

/-- Where there is no room for the headers in front of it, one that is not valid is never met. -/
theorem ofHeaders_of_full (hroom : ¬HasRoom (leading hs)) : ofHeaders hs = .error .full := by
  have hfirst : ofHeaders (leading hs) = _ := ofHeaders_of_crowd (fault_leading hs) hroom
  have heq : hs = leading hs ++ hs.dropWhile fun h => h.fault.isNone :=
    List.takeWhile_append_dropWhile.symm
  rw [ofHeaders] at hfirst
  rw [ofHeaders, heq, addAll_append, hfirst]
  rfl

/-! ## What is sent -/

/-- Whether there is no room for headers: not for those in front of the first that is not valid, or,
if all of them are valid, not for what the protocol adds to them. -/
def Overflows (hs : List Header) : Prop :=
  ¬HasRoom (leading hs) ∨
    hs.findSome? Header.fault = none ∧ maxEntries < keyCount (unreserved hs) + addedKeys.length

/-- So many headers never overflow. -/
theorem not_overflows_of_length_le (h : hs.length + addedKeys.length ≤ maxEntries) :
    ¬Overflows hs := by
  have hleading : (leading hs).length ≤ hs.length := (List.takeWhile_sublist _).length_le
  have hunreserved : (unreserved hs).length ≤ hs.length := (List.filter_sublist).length_le
  have hcount := keyCount_le_length (unreserved hs)
  rintro (hroom | ⟨-, hroom⟩)
  · exact hroom (hasRoom_of_length_le (by omega))
  · omega

theorem outgoing_of_fault (hf : hs.findSome? Header.fault = some e) (hroom : ¬Overflows hs) :
    outgoing hs = .error (.header e) := by
  rw [outgoing, ofHeaders_of_fault hf (not_not.mp fun h => hroom (.inl h))]

theorem outgoing_of_valid (hf : hs.findSome? Header.fault = none) (hroom : ¬Overflows hs) :
    ofHeaders hs = .ok (hs.foldl put []) ∧ outgoing hs = .ok (hs.foldl put []).sent := by
  have hleading : HasRoom hs := by
    rw [← leading_of_valid hf]
    exact not_not.mp fun h => hroom (.inl h)
  have hadded := Nat.not_lt.mp fun h => hroom (.inr ⟨hf, h⟩)
  have hmetadata := ofHeaders_of_valid hf hleading
  refine ⟨hmetadata, ?_⟩
  rw [outgoing, hmetadata]
  dsimp only
  rw [length_sent_foldl_put, if_pos hadded]

theorem outgoing_of_overflow (hroom : Overflows hs) : outgoing hs = .error .full := by
  rw [outgoing]
  by_cases hleading : HasRoom (leading hs)
  · obtain ⟨hf, hadded⟩ := hroom.resolve_left (not_not.mpr hleading)
    rw [leading_of_valid hf] at hleading
    rw [ofHeaders_of_valid hf hleading]
    dsimp only
    rw [length_sent_foldl_put, if_neg (Nat.not_le.mpr hadded)]
  · rw [ofHeaders_of_full hleading]

end Metadata

end NamedQuery
