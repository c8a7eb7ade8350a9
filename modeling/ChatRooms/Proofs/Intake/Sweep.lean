import ChatRooms.Intake
import ChatRooms.Proofs.Maps
import Mathlib.Data.List.Basic

namespace ChatRooms.Sweeper

open Std

variable {sweeper : Sweeper} {haul : Haul} {id other : ClientId} {ids : List ClientId}

def linesOf (sweeper : Sweeper) (id : ClientId) : List Envelope :=
  ((sweeper.feeds[id]?.map Feed.lines).getD []).map fun line => { id, report := .line line }

def endsOf (sweeper : Sweeper) (id : ClientId) : Bool :=
  sweeper.feeds[id]?.any Feed.hasEnded

theorem visit_snd (sweeper : Sweeper) (haul : Haul) (id : ClientId) :
    (visit (sweeper, haul) id).2 = {
      lines := haul.lines ++ sweeper.linesOf id
      ended := if sweeper.endsOf id then haul.ended ++ [id] else haul.ended } := by
  unfold visit linesOf endsOf
  dsimp only
  cases sweeper.feeds[id]? <;> simp

theorem getElem?_visit (sweeper : Sweeper) (haul : Haul) (id other : ClientId) :
    (visit (sweeper, haul) id).1.feeds[other]? =
      if id = other then sweeper.feeds[other]?.map Feed.drained else sweeper.feeds[other]? := by
  unfold visit
  dsimp only
  cases hfeed : sweeper.feeds[id]? with
  | none =>
    show sweeper.feeds[other]? = _
    split
    next heq => rw [← heq, hfeed, Option.map_none]
    next => rfl
  | some feed =>
    show (sweeper.feeds.insert id feed.drained)[other]? = _
    rw [ExtTreeMap.getElem?_insert]
    simp only [Std.compare_eq_iff_eq]
    split
    next heq => rw [← heq, hfeed, Option.map_some]
    next => rfl

theorem foldl_visit (hnodup : ids.Nodup) (sweeper : Sweeper) (haul : Haul) :
    (ids.foldl visit (sweeper, haul)).2 = {
      lines := haul.lines ++ ids.flatMap sweeper.linesOf
      ended := haul.ended ++ ids.filter sweeper.endsOf } ∧
    ∀ i : ClientId, (ids.foldl visit (sweeper, haul)).1.feeds[i]? =
      if i ∈ ids then sweeper.feeds[i]?.map Feed.drained else sweeper.feeds[i]? := by
  induction ids generalizing sweeper haul with
  | nil => simp
  | cons id ids ih =>
    obtain ⟨hnew, hrest⟩ := List.nodup_cons.1 hnodup
    obtain ⟨hhaul, hfeeds⟩ := ih hrest (visit (sweeper, haul) id).1 (visit (sweeper, haul) id).2
    -- The feeds that are still to be visited are as they were.
    have hsame : ∀ i ∈ ids, (visit (sweeper, haul) id).1.feeds[i]? = sweeper.feeds[i]? := by
      intro i hi
      rw [getElem?_visit, if_neg (fun heq : id = i => hnew (heq ▸ hi))]
    have hlines : ids.flatMap (visit (sweeper, haul) id).1.linesOf = ids.flatMap sweeper.linesOf := by
      apply List.flatMap_congr
      intro i hi
      rw [linesOf, hsame i hi, linesOf]
    have hends : ids.filter (visit (sweeper, haul) id).1.endsOf = ids.filter sweeper.endsOf := by
      apply List.filter_congr
      intro i hi
      rw [endsOf, hsame i hi, endsOf]
    rw [List.foldl_cons]
    refine ⟨?_, ?_⟩
    · rw [hhaul, hlines, hends, visit_snd, List.flatMap_cons, List.append_assoc]
      congr 1
      rw [List.filter_cons]
      split
      next => rw [List.append_assoc, List.singleton_append]
      next => rfl
    · intro i
      rw [hfeeds, getElem?_visit]
      by_cases hi : i ∈ ids
      · have hne : id ≠ i := fun heq => hnew (heq ▸ hi)
        simp [hi, hne]
      · by_cases heq : id = i
        · subst heq
          simp [hi]
        · simp [hi, heq, Ne.symm heq]

theorem getElem?_foldl_detach (sweeper : Sweeper) (i : ClientId) :
    (ids.foldl detach sweeper).feeds[i]? = if i ∈ ids then none else sweeper.feeds[i]? := by
  induction ids generalizing sweeper with
  | nil => rfl
  | cons id ids ih =>
    rw [List.foldl_cons, ih]
    show (if i ∈ ids then none else (sweeper.feeds.erase id)[i]?) = _
    rw [ExtTreeMap.getElem?_erase]
    simp only [Std.compare_eq_iff_eq, List.mem_cons]
    grind

theorem nodup_of_perm_keys (horder : ids.Perm sweeper.feeds.keys) : ids.Nodup :=
  horder.nodup_iff.2 ExtTreeMap.nodup_keys

theorem sweepInOrder_snd (horder : ids.Perm sweeper.feeds.keys) : (sweeper.sweepInOrder ids).2 =
    ids.flatMap sweeper.linesOf ++
      (ids.filter sweeper.endsOf).map fun id => { id, report := .closed } := by
  have hhaul := (foldl_visit (nodup_of_perm_keys horder) sweeper {}).1
  rw [sweepInOrder]
  dsimp only
  rw [hhaul, Haul.batch, List.nil_append, List.nil_append]

theorem getElem?_sweepInOrder (horder : ids.Perm sweeper.feeds.keys) (i : ClientId) :
    (sweeper.sweepInOrder ids).1.feeds[i]? =
      if sweeper.endsOf i then none else sweeper.feeds[i]?.map Feed.drained := by
  obtain ⟨hhaul, hfeeds⟩ := foldl_visit (nodup_of_perm_keys horder) sweeper {}
  rw [sweepInOrder]
  dsimp only
  rw [getElem?_foldl_detach, hhaul, hfeeds]
  simp only [List.nil_append, List.mem_filter, horder.mem_iff, ExtTreeMap.mem_keys,
    ExtTreeMap.mem_iff_isSome_getElem?]
  cases hfeed : sweeper.feeds[i]? <;> simp [endsOf, hfeed]

theorem sweep_snd (sweeper : Sweeper) : sweeper.sweep.2 =
    sweeper.feeds.keys.flatMap sweeper.linesOf ++
      (sweeper.feeds.keys.filter sweeper.endsOf).map fun id => { id, report := .closed } :=
  sweepInOrder_snd (.refl _)

theorem getElem?_sweep (sweeper : Sweeper) (i : ClientId) : sweeper.sweep.1.feeds[i]? =
    if sweeper.endsOf i then none else sweeper.feeds[i]?.map Feed.drained :=
  getElem?_sweepInOrder (.refl _) i

theorem isRung_foldl_detach (ids : List ClientId) :
    (ids.foldl detach sweeper).isRung = sweeper.isRung := by
  induction ids generalizing sweeper with
  | nil => rfl
  | cons id ids ih => rw [List.foldl_cons, ih, detach]

theorem isRung_foldl_visit (haul : Haul) (ids : List ClientId) :
    (ids.foldl visit (sweeper, haul)).1.isRung = sweeper.isRung := by
  induction ids generalizing sweeper haul with
  | nil => rfl
  | cons id ids ih =>
    rw [List.foldl_cons, visit]
    split
    next => exact ih haul
    next => rw [ih, attach]

theorem isRung_sweepInOrder (ids : List ClientId) :
    (sweeper.sweepInOrder ids).1.isRung = sweeper.isRung := by
  rw [sweepInOrder]
  dsimp only
  rw [isRung_foldl_detach, isRung_foldl_visit]

theorem isRung_sweep : sweeper.sweep.1.isRung = sweeper.isRung :=
  isRung_sweepInOrder _

theorem flatMap_eq_of_mem {α β : Type} {l : List α} {a : α} {f : α → List β} (hnodup : l.Nodup)
    (hmem : a ∈ l) (hothers : ∀ b, b ≠ a → f b = []) : l.flatMap f = f a := by
  obtain ⟨front, back, rfl⟩ := List.append_of_mem hmem
  -- It stands there once, so what comes before and after it adds nothing.
  have hnot : a ∉ front ∧ a ∉ back := by
    rw [List.nodup_append, List.nodup_cons] at hnodup
    exact ⟨fun hfront => hnodup.2.2 a hfront a List.mem_cons_self rfl, hnodup.2.1.1⟩
  have hnil {m : List α} (hm : a ∉ m) : m.flatMap f = [] := by
    rw [List.flatMap_eq_nil_iff]
    intro b hb
    exact hothers b fun heq => hm (heq ▸ hb)
  rw [List.flatMap_append, List.flatMap_cons, hnil hnot.1, hnil hnot.2, List.nil_append,
    List.append_nil]

theorem filter_eq_flatMap {α : Type} (p : α → Bool) (l : List α) :
    l.filter p = l.flatMap fun a => if p a then [a] else [] := by
  induction l with
  | nil => rfl
  | cons a l ih => rw [List.filter_cons, List.flatMap_cons, ← ih]; split <;> rfl

theorem sweep_snd_of_single {feed : Feed} (hid : sweeper.feeds[id]? = some feed)
    (hothers : ∀ other, other ≠ id → sweeper.linesOf other = [] ∧ sweeper.endsOf other = false) :
    sweeper.sweep.2 = (feed.lines.map fun line => { id, report := .line line }) ++
      if feed.hasEnded then [{ id, report := .closed }] else [] := by
  have hnodup : sweeper.feeds.keys.Nodup := ExtTreeMap.nodup_keys
  have hmem : id ∈ sweeper.feeds.keys := ExtTreeMap.mem_keys.2 (Maps.mem_of_getElem? hid)
  have hlines : sweeper.linesOf id = feed.lines.map fun line => { id, report := .line line } := by
    rw [linesOf, hid, Option.map_some, Option.getD_some]
  have hends : sweeper.endsOf id = feed.hasEnded := by rw [endsOf, hid, Option.any_some]
  rw [sweep_snd, filter_eq_flatMap,
    flatMap_eq_of_mem hnodup hmem fun other hne => (hothers other hne).1,
    flatMap_eq_of_mem hnodup hmem fun other hne => by rw [(hothers other hne).2]; rfl, hlines, hends]
  cases feed.hasEnded <;> rfl

theorem sweep_snd_of_silent (hsilent : ∀ id, sweeper.linesOf id = [] ∧ sweeper.endsOf id = false) :
    sweeper.sweep.2 = [] := by
  rw [sweep_snd, List.append_eq_nil_iff, List.flatMap_eq_nil_iff, List.map_eq_nil_iff,
    List.filter_eq_nil_iff]
  exact ⟨fun id _ => (hsilent id).1, fun id _ => by rw [(hsilent id).2]; exact Bool.false_ne_true⟩

end ChatRooms.Sweeper
