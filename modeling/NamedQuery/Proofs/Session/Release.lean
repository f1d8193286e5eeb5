import NamedQuery.Proofs.Client.Cursor
import NamedQuery.Proofs.Session.Step

/-!
# Streams are let go of once

The service holds a stream open behind every stream of a session, but for one that was opened by a
bare success. Whatever happens to the streams of a session, each of those that the service holds is
either held still or has been let go of, and never both:

* `Balanced`: no name twice, and what was opened is what was let go of and what is held.
* `streams_released_once`: sessions stay balanced, and nothing that was let go of comes back.
* `bare_success_not_released`: what a bare success opens is not there to be let go of.
-/

namespace NamedQuery

/-! ## Cursors -/

namespace Cursor

variable {c : Cursor}

/-- Whether the service holds a stream open for the cursor. -/
def isHeld (c : Cursor) : Bool := c.incoming.any Incoming.held

theorem hold_eq_isHeld : c.hold = c.isHeld.toNat := by
  rw [hold, isHeld]
  cases c.incoming <;> rfl

/-- A delivery that is no value lets go of the stream. -/
theorem hold_next (c : Cursor) : c.next.2.hold = if c.next.1.isItem then c.hold else 0 := by
  rcases next_closes_or_gives c with ⟨hitem, hclosed, -⟩ | ⟨v, i, i', hi, hnext, hheld⟩
  · rw [hold, hclosed, hitem]
    rfl
  · rw [hnext, hold_eq_isHeld, hold_eq_isHeld, isHeld, isHeld, hi]
    exact congrArg Bool.toNat hheld

theorem hold_next_le : c.next.2.hold ≤ c.hold := by
  rw [hold_next]
  split
  · exact Nat.le_refl _
  · exact Nat.zero_le _

theorem isHeld_next (h : c.isHeld = !c.isClosed) : c.next.2.isHeld = !c.next.2.isClosed := by
  rcases next_closes_or_gives c with ⟨-, hclosed, -⟩ | ⟨v, i, i', hi, hnext, hheld⟩
  · rw [isHeld, isClosed, hclosed]
    rfl
  · rw [isHeld, isClosed, hi] at h
    rw [hnext]
    exact hheld.trans h

end Cursor

namespace Session

variable {s : Session} {id : String} {op : Op} {hs : List (String × Handle)}

/-! ## What is held -/

/-- The number of streams that the service holds open for these. -/
def heldAmong (hs : List (String × Handle)) : Nat := hs.countP fun e => e.2.cursor.isHeld

/-- The number of streams that the service holds open for a session. -/
def held (s : Session) : Nat := heldAmong s.handles

/-- The number of streams of a session that are not closed. -/
def live (s : Session) : Nat := s.handles.countP fun e => !e.2.cursor.isClosed

theorem heldAmong_cons (e : String × Handle) :
    heldAmong (e :: hs) = heldAmong hs + e.2.cursor.hold := by
  rw [heldAmong, List.countP_cons, Cursor.hold_eq_isHeld, heldAmong]
  cases e.2.cursor.isHeld <;> rfl

theorem heldAmong_append_single (e : String × Handle) :
    heldAmong (hs ++ [e]) = heldAmong hs + e.2.cursor.hold := by
  rw [heldAmong, List.countP_append]
  show _ + heldAmong [e] = _
  rw [heldAmong_cons]
  exact congrArg _ (Nat.zero_add _)

theorem ne_of_not_mem {e : String × Handle} (hn : e.1 ∉ hs.map Prod.fst) (he : e.1 = id) :
    ∀ e' ∈ hs, e'.1 ≠ id := by
  intro e' he' hid
  exact hn (List.mem_map.mpr ⟨e', he', hid.trans he.symm⟩)

/-- With no name twice, what a filter takes away is the one stream with the name. -/
theorem heldAmong_filter (id : String) (hn : (hs.map Prod.fst).Nodup) :
    heldAmong (hs.filter fun e => e.1 != id) + (lookup hs id).elim 0 (·.cursor.hold) =
      heldAmong hs := by
  induction hs with
  | nil => rfl
  | cons e hs ih =>
    rw [List.map_cons, List.nodup_cons] at hn
    rw [List.filter_cons, lookup_cons, heldAmong_cons]
    by_cases he : e.1 = id
    · have hrest : hs.filter (fun e => e.1 != id) = hs :=
        List.filter_eq_self.mpr fun e' he' => bne_iff_ne.mpr (ne_of_not_mem hn.1 he e' he')
      rw [if_neg (by simp [he]), if_pos he, hrest]
      rfl
    · have hrest := ih hn.2
      rw [if_pos (by simp [he]), if_neg he, heldAmong_cons]
      omega

/-- With no name twice, a replacement is about one stream only. -/
theorem heldAmong_replace {before : Handle} (after : Handle) (hn : (hs.map Prod.fst).Nodup)
    (hl : lookup hs id = some before) :
    heldAmong (hs.map fun e => if e.1 == id then (id, after) else e) + before.cursor.hold =
      heldAmong hs + after.cursor.hold := by
  induction hs with
  | nil => cases hl
  | cons e hs ih =>
    rw [List.map_cons, List.nodup_cons] at hn
    rw [lookup_cons] at hl
    rw [List.map_cons, heldAmong_cons, heldAmong_cons]
    by_cases he : e.1 = id
    · have hrest : hs.map (fun e => if e.1 == id then (id, after) else e) = hs := by
        refine (List.map_congr_left fun e' he' => if_neg ?_).trans (List.map_id' hs)
        exact fun hid => ne_of_not_mem hn.1 he e' he' (eq_of_beq hid)
      rw [if_pos he] at hl
      cases hl
      rw [hrest, if_pos (by simp [he])]
      dsimp only
      omega
    · have hrest := ih hn.2 (by rwa [if_neg he] at hl)
      rw [if_neg (by simp [he])]
      omega

/-! ## No name twice -/

/-- The names of the streams of a session. -/
def names (s : Session) : List String := s.handles.map Prod.fst

theorem find?_eq_none (h : s.find? id = none) : id ∉ s.names := by
  intro hmem
  obtain ⟨e, he, rfl⟩ := List.mem_map.mp hmem
  rw [find?, Option.map_eq_none_iff, List.find?_eq_none] at h
  exact h e he (beq_self_eq_true _)

theorem nodup_release (hn : s.names.Nodup) : (s.release id).names.Nodup := by
  rw [release]
  split
  · exact hn
  · exact (List.filter_sublist.map Prod.fst).nodup hn

theorem nodup_put {h : Handle} (hn : s.names.Nodup) : (s.put id h).names.Nodup := by
  have hfree : id ∉ (s.release id).names := find?_eq_none (by rw [find?_release, if_pos rfl])
  show (((s.release id).handles ++ [(id, h)]).map Prod.fst).Nodup
  rw [List.map_append, List.nodup_append]
  refine ⟨nodup_release hn, List.pairwise_singleton _ _, fun name hname other hother hsame => ?_⟩
  rw [hsame, List.mem_singleton.mp hother] at hname
  exact hfree hname

theorem names_advance {before : Cursor} {h : Handle} : (s.advance id before h).names = s.names := by
  show (s.handles.map _).map Prod.fst = s.handles.map Prod.fst
  rw [List.map_map]
  refine List.map_congr_left fun e _ => ?_
  by_cases he : e.1 = id
  · simp [he]
  · simp [he]

theorem released_le_release : s.released ≤ (s.release id).released := by
  rw [release]
  split
  · exact Nat.le_refl _
  · exact Nat.le_add_right _ _

/-! ## Conservation -/

theorem held_release (id : String) (hn : s.names.Nodup) :
    (s.release id).released + (s.release id).held = s.released + s.held := by
  rw [release]
  split
  · rfl
  · rename_i h hs
    have hsplit := heldAmong_filter id hn
    rw [← find?_eq_lookup, hs] at hsplit
    show s.released + h.cursor.hold + heldAmong (s.others id) = s.released + heldAmong s.handles
    rw [← hsplit, others]
    dsimp only [Option.elim]
    omega

theorem held_put {h : Handle} (hn : s.names.Nodup) :
    (s.put id h).released + (s.put id h).held = s.released + s.held + h.cursor.hold := by
  rw [← held_release id hn]
  show (s.release id).released + heldAmong ((s.release id).handles ++ [(id, h)]) = _
  rw [heldAmong_append_single]
  exact (Nat.add_assoc _ _ _).symm

theorem held_advance {before after : Handle} (hn : s.names.Nodup)
    (hs : s.find? id = some before) (hle : after.cursor.hold ≤ before.cursor.hold) :
    (s.advance id before.cursor after).released + (s.advance id before.cursor after).held =
      s.released + s.held := by
  have hsum := heldAmong_replace after hn (find?_eq_lookup.symm.trans hs)
  show s.released + (before.cursor.hold - after.cursor.hold) +
    heldAmong (s.handles.map fun e => if e.1 == id then (id, after) else e) =
      s.released + heldAmong s.handles
  omega

/-- Whether an operation opens a stream behind which the service holds one. -/
def opensHeld (s : Session) (op : Op) : Bool :=
  s.opens op && !s.service.replies.head?.any Reply.isBareSuccess

/-- How many operations are such, each in the session in which its turn comes. -/
def count (such : Session → Op → Bool) (s : Session) : List Op → Nat
  | [] => 0
  | op :: ops => (such s op).toNat + count such (s.step op).2 ops

/-- No name twice, and what was opened is what was let go of and what is held. -/
structure Balanced (s : Session) (opened : Nat) : Prop where
  nodup : s.names.Nodup
  opened : opened = s.released + s.held

theorem Balanced.start (replies : List Reply) : Balanced (start replies) 0 :=
  ⟨List.nodup_nil, rfl⟩

/-- **A step keeps the balance.** -/
theorem Balanced.step {n : Nat} (hs : Balanced s n) (op : Op) :
    Balanced (s.step op).2 (n + (s.opensHeld op).toNat) := by
  have heffect := effect_step s op
  generalize s.step op = result at heffect ⊢
  cases heffect with
  | quiet hopens hhandles hreleased =>
    -- neither side of the balance moves
    rw [opensHeld, hopens]
    refine ⟨?_, ?_⟩
    · rw [names, hhandles]
      exact hs.nodup
    · rw [held, hhandles, hreleased]
      exact hs.opened
  | @opens id r wrap reply rest service hopens hopening hreplies hheld =>
    -- the one that is replaced moves from one summand to the other, and the new one is held
    have hcursor : ∀ c, (wrap c).cursor = c := Op.cursor_of_opening? hopening
    have hhold : (Cursor.opened r.name reply.incoming).hold = (s.opensHeld op).toNat := by
      rw [opensHeld, hopens, hreplies]
      exact congrArg Bool.toNat hheld
    refine ⟨nodup_put hs.nodup, ?_⟩
    rw [held_put (s := s.withService service) hs.nodup, hcursor, hhold, hs.opened]
    rfl
  | takes hopens _ hfound =>
    -- a delivery that closes a stream lets go of it, and no delivery opens one again
    rw [opensHeld, hopens]
    refine ⟨by rw [names_advance]; exact hs.nodup, ?_⟩
    rw [held_advance hs.nodup hfound (by rw [Handle.cursor_next]; exact Cursor.hold_next_le)]
    exact hs.opened
  | releases hopens =>
    rw [opensHeld, hopens]
    refine ⟨nodup_release hs.nodup, ?_⟩
    rw [held_release _ hs.nodup]
    exact hs.opened

theorem Balanced.after {n : Nat} (hs : Balanced s n) (ops : List Op) :
    Balanced (s.after ops) (n + s.count opensHeld ops) := by
  induction ops generalizing s n with
  | nil => exact hs
  | cons op ops ih =>
    rw [count, ← Nat.add_assoc]
    exact ih (hs.step op)

/-- Nothing that was let go of comes back. -/
theorem released_le_step (s : Session) (op : Op) : s.released ≤ (s.step op).2.released := by
  have heffect := effect_step s op
  generalize s.step op = result at heffect ⊢
  cases heffect with
  | quiet _ _ hreleased => exact Nat.le_of_eq hreleased.symm
  | opens service => exact released_le_release (s := s.withService service)
  | takes => exact Nat.le_add_right _ _
  | releases => exact released_le_release

/-! ## Sessions without bare successes -/

/-- The service holds a stream open for every stream that is not closed. -/
def Backed (s : Session) : Prop := ∀ e ∈ s.handles, e.2.cursor.isHeld = !e.2.cursor.isClosed

theorem Backed.release (hs : s.Backed) (id : String) : (s.release id).Backed := by
  rw [Session.release]
  split
  · exact hs
  · exact fun e he => hs e (List.mem_filter.mp he).1

theorem Backed.held_eq_live (hs : s.Backed) : s.held = s.live :=
  List.countP_congr fun e he => by rw [hs e he]

/-- A step opens nothing that the service does not hold, or the count tells of it. -/
theorem Backed.step (hs : s.Backed) (op : Op) (hop : s.opens op = s.opensHeld op) :
    (s.step op).2.Backed := by
  have heffect := effect_step s op
  generalize s.step op = result at heffect ⊢
  cases heffect with
  | quiet _ hhandles =>
    rw [Backed, hhandles]
    exact hs
  | @opens id r wrap reply rest service hopens hopening hreplies hheld =>
    have hcursor : ∀ c, (wrap c).cursor = c := Op.cursor_of_opening? hopening
    rw [opensHeld, hopens, hreplies] at hop
    have hfresh : reply.incoming.held = true := hheld.trans hop.symm
    intro e he
    rcases List.mem_append.mp he with hold | hnew
    · exact Backed.release (s := s.withService service) hs id e hold
    · rw [List.mem_singleton.mp hnew, hcursor]
      exact hfresh
  | @takes id h _ _ hfound =>
    intro e he
    obtain ⟨before, hbefore, rfl⟩ := List.mem_map.mp he
    by_cases hid : before.1 = id
    · obtain ⟨found, hmem, rfl⟩ := Option.map_eq_some_iff.mp hfound
      rw [if_pos (by simp [hid]), Handle.cursor_next]
      exact Cursor.isHeld_next (hs found (List.mem_of_find?_eq_some hmem))
    · rw [if_neg (by simp [hid])]
      exact hs before hbefore
  | releases => exact hs.release _

theorem opensHeld_le_opens (s : Session) (op : Op) :
    (s.opensHeld op).toNat ≤ (s.opens op).toNat := by
  rw [opensHeld]
  cases s.opens op
  · exact Nat.le_refl _
  · exact Bool.toNat_le _

theorem opens_eq_opensHeld (h : (s.opens op).toNat ≤ (s.opensHeld op).toNat) :
    s.opens op = s.opensHeld op := by
  rw [opensHeld] at h ⊢
  cases hopens : s.opens op with
  | false => rfl
  | true =>
    rw [hopens, Bool.true_and] at h
    exact (Bool.toNat_eq_one.mp (Nat.le_antisymm (Bool.toNat_le _) h)).symm

theorem count_opensHeld_le (s : Session) (ops : List Op) :
    s.count opensHeld ops ≤ s.count opens ops := by
  induction ops generalizing s with
  | nil => exact Nat.le_refl _
  | cons op ops ih => exact Nat.add_le_add (opensHeld_le_opens s op) (ih _)

theorem Backed.after (hs : s.Backed) (ops : List Op)
    (hops : s.count opens ops ≤ s.count opensHeld ops) : (s.after ops).Backed := by
  induction ops generalizing s with
  | nil => exact hs
  | cons op ops ih =>
    -- neither count can make up later for what it lost to the other here
    have hfirst := opensHeld_le_opens s op
    have hrest := count_opensHeld_le (s.step op).2 ops
    rw [count, count] at hops
    have hop : (s.opens op).toNat ≤ (s.opensHeld op).toNat := by omega
    have hlater : (s.step op).2.count opens ops ≤ (s.step op).2.count opensHeld ops := by omega
    exact ih (hs.step op (opens_eq_opensHeld hop)) hlater

/-! ## Whole runs -/

/-- **Streams are let go of once.** After any operations on a fresh session, the streams that were
opened and that the service held are those that were let go of and those that are held still, and no
further operation takes back what was let go of. When the service held a stream behind each that was
opened, those that are held still are those that are not closed. -/
theorem streams_released_once (replies : List Reply) (ops : List Op) :
    let s := (start replies).after ops
    (start replies).count opensHeld ops = s.released + s.held ∧
    (∀ op, s.released ≤ (s.step op).2.released) ∧
    ((start replies).count opens ops = (start replies).count opensHeld ops →
      (start replies).count opens ops = s.released + s.live) := by
  intro s
  have hbalanced : Balanced s (0 + (start replies).count opensHeld ops) :=
    (Balanced.start replies).after ops
  rw [Nat.zero_add] at hbalanced
  refine ⟨hbalanced.opened, released_le_step s, fun hops => ?_⟩
  have hbacked : s.Backed := Backed.after (s := start replies) nofun ops (Nat.le_of_eq hops)
  rw [hops, ← hbacked.held_eq_live]
  exact hbalanced.opened

/-- Streams that fail and are cancelled, that are put in place of others, and that are run over. -/
theorem streams_released_once_mixed :
    let first := start [.elements [.node (.ofValue (.uint64 7)), .status ⟨.internal, "lost"⟩],
      .node (.ofValue .nil), .elements [.node (.ofValue .nil), .node (.ofValue .nil)],
      .status ⟨.notFound, "no such query"⟩]
    let ops : List Op := [.stream "a" (.named "q"), .next "a", .deposits "b", .next "a",
      .cancel "a", .stream "b" (.named "q"), .stream "c" (.named "q"), .forEach "b" (some 1)]
    first.count opens ops = first.count opensHeld ops ∧
    first.count opens ops = (first.after ops).released + (first.after ops).live := by
  intro first ops
  have hops : first.count opens ops = first.count opensHeld ops := by decide +kernel
  exact ⟨hops, (streams_released_once _ ops).2.2 hops⟩

/-- A bare success opens a stream, and nothing is let go of at its end. -/
theorem bare_success_not_released :
    let first := start [.status ⟨.ok, ""⟩]
    let ops : List Op := [.stream "a" (.named "q"), .next "a"]
    first.count opens ops = 1 ∧ (first.after ops).released = 0 ∧ (first.after ops).live = 0 := by
  decide +kernel

end Session

end NamedQuery
