import ChatRooms.Proofs.Intake.Sweep

namespace ChatRooms.Sweeper

open Std

/-- All that was in the feeds is in the batch, and the feeds are left without it. -/
structure Clears (before : Sweeper) (batch : List Envelope) (after : Sweeper) : Prop where
  /-- No ending comes before a line, whosever it is. -/
  endings_last : ∃ (lines : List (ClientId × String)) (ended : List ClientId), batch =
    lines.map (fun (id, line) => { id, report := .line line }) ++
      ended.map fun id => { id, report := .closed }
  /-- Of each client: its lines as they were written, and its end, once, if it has come. -/
  of_client (id : ClientId) : batch.filter (fun envelope => envelope.id = id) =
    before.linesOf id ++ if before.endsOf id then [{ id, report := .closed }] else []
  feeds (id : ClientId) : after.feeds[id]? =
    (before.feeds[id]?.filter fun feed => !feed.hasEnded).map Feed.drained
  isRung : after.isRung = before.isRung

variable {sweeper before after : Sweeper} {order other : List ClientId} {id : ClientId}
  {batch : List Envelope}

theorem linesOf_eq_map (sweeper : Sweeper) (id : ClientId) : sweeper.linesOf id =
    (((sweeper.feeds[id]?.map Feed.lines).getD []).map fun line => (id, line)).map
      fun (id, line) => { id, report := .line line } := by
  rw [linesOf, List.map_map]
  rfl

theorem id_of_mem_linesOf {envelope : Envelope} (h : envelope ∈ sweeper.linesOf id) :
    envelope.id = id := by
  obtain ⟨line, -, rfl⟩ := List.mem_map.1 h
  rfl

theorem filter_flatMap_of_client {gather : ClientId → List Envelope}
    (hown : ∀ id, ∀ envelope ∈ gather id, envelope.id = id) (hnodup : order.Nodup)
    (habsent : id ∉ order → gather id = []) :
    (order.flatMap gather).filter (fun envelope => envelope.id = id) = gather id := by
  have hpart (i : ClientId) : (gather i).filter (fun envelope => envelope.id = id) =
      if i = id then gather i else [] := by
    split
    next heq =>
      rw [List.filter_eq_self]
      intro envelope hmem
      rw [hown i envelope hmem, heq, decide_eq_true rfl]
    next hne =>
      rw [List.filter_eq_nil_iff]
      intro envelope hmem
      rw [hown i envelope hmem, decide_eq_true_iff]
      exact hne
  rw [List.filter_flatMap]
  simp only [hpart]
  by_cases hmem : id ∈ order
  · rw [flatMap_eq_of_mem hnodup hmem fun i hne => if_neg hne, if_pos rfl]
  · rw [habsent hmem, List.flatMap_eq_nil_iff]
    intro i hi
    rw [if_neg]
    rintro rfl
    exact hmem hi

theorem sweepInOrder_clears (horder : order.Perm sweeper.feeds.keys) :
    sweeper.Clears (sweeper.sweepInOrder order).2 (sweeper.sweepInOrder order).1 where
  endings_last := by
    refine ⟨order.flatMap fun id => ((sweeper.feeds[id]?.map Feed.lines).getD []).map fun line =>
      (id, line), order.filter sweeper.endsOf, ?_⟩
    rw [sweepInOrder_snd horder, List.map_flatMap]
    simp only [← linesOf_eq_map]
  of_client id := by
    have habsent (hnot : id ∉ order) : sweeper.feeds[id]? = none := by
      rw [horder.mem_iff, ExtTreeMap.mem_keys] at hnot
      exact ExtTreeMap.getElem?_eq_none hnot
    have hnodup := nodup_of_perm_keys horder
    -- The endings are gathered feed by feed as well, one at most from each.
    rw [sweepInOrder_snd horder, List.filter_append, filter_eq_flatMap sweeper.endsOf,
      List.map_flatMap, filter_flatMap_of_client (fun _ _ => id_of_mem_linesOf) hnodup
        fun hnot => by rw [linesOf, habsent hnot]; rfl,
      filter_flatMap_of_client (fun i envelope hmem => ?_) hnodup
        fun hnot => by rw [endsOf, habsent hnot]; rfl]
    · split <;> rfl
    · split at hmem
      next => rw [List.mem_singleton.1 hmem]
      next => cases hmem
  feeds id := by
    rw [getElem?_sweepInOrder horder, endsOf]
    cases hfeed : sweeper.feeds[id]? with
    | none => rfl
    | some feed => cases hended : feed.hasEnded <;> simp [Option.filter, hended]
  isRung := isRung_sweepInOrder order

namespace Clears

variable {batch' : List Envelope} {after' : Sweeper}

theorem after_unique (h : before.Clears batch after) (h' : before.Clears batch' after') :
    after' = after := by
  have hfeeds : after'.feeds = after.feeds := by
    apply ExtTreeMap.ext_getElem?
    intro id
    rw [h.feeds, h'.feeds]
  obtain ⟨feeds, isRung⟩ := after'
  obtain rfl : isRung = after.isRung := h'.isRung.trans h.isRung.symm
  subst hfeeds
  rfl

theorem perm (h : before.Clears batch after) (h' : before.Clears batch' after') :
    batch'.Perm batch := by
  rw [List.perm_iff_count]
  intro envelope
  have hself : decide (envelope.id = envelope.id) = true := decide_eq_true rfl
  have hpart (batch : List Envelope) : batch.count envelope =
      (batch.filter fun other => other.id = envelope.id).count envelope :=
    (List.count_filter (p := fun other : Envelope => decide (other.id = envelope.id)) hself).symm
  rw [hpart, hpart batch, h.of_client, h'.of_client]

theorem linesOf_after (h : before.Clears batch after) (id : ClientId) : after.linesOf id = [] := by
  rw [linesOf, h.feeds]
  cases before.feeds[id]?.filter fun feed => !feed.hasEnded <;> rfl

theorem endsOf_after (h : before.Clears batch after) (id : ClientId) : after.endsOf id = false := by
  rw [endsOf, h.feeds]
  cases hfeed : before.feeds[id]?.filter fun feed => !feed.hasEnded with
  | none => rfl
  | some feed =>
    obtain ⟨-, hopen⟩ := Option.filter_eq_some_iff.1 hfeed
    rw [Option.map_some, Option.any_some]
    exact Bool.not_eq_true' _ ▸ hopen

theorem again (h : before.Clears batch after) (h' : after.Clears batch' after') :
    batch' = [] ∧ after' = after := by
  have hempty : batch' = [] := by
    rw [List.eq_nil_iff_forall_not_mem]
    intro envelope hmem
    have hpart := h'.of_client envelope.id
    rw [h.linesOf_after, h.endsOf_after, List.nil_append, if_neg Bool.false_ne_true,
      List.filter_eq_nil_iff] at hpart
    exact hpart envelope hmem (decide_eq_true rfl)
  refine ⟨hempty, ?_⟩
  have hsame : after.Clears batch' after := {
    endings_last := h'.endings_last
    of_client := h'.of_client
    feeds := fun id => by
      rw [h.feeds]
      cases hfeed : before.feeds[id]?.filter fun feed => !feed.hasEnded with
      | none => rfl
      | some feed =>
        obtain ⟨-, hopen⟩ := Option.filter_eq_some_iff.1 hfeed
        rw [Option.map_some, Option.filter_some, if_pos (show (!feed.drained.hasEnded) = true from hopen)]
        rfl
    isRung := rfl }
  exact hsame.after_unique h'

end Clears

/-- Whichever feeds there are, and whatever is in them: a sweep takes everything out once, a second one
finds nothing, and another order gives every client the same. -/
theorem sweepInOrder_empties (horder : order.Perm sweeper.feeds.keys) :
    let after := (sweeper.sweepInOrder order).1
    let batch := (sweeper.sweepInOrder order).2
    sweeper.Clears batch after ∧
      (∀ order', order'.Perm after.feeds.keys → after.sweepInOrder order' = (after, [])) ∧
      ∀ order', order'.Perm sweeper.feeds.keys →
        (sweeper.sweepInOrder order').1 = after ∧ (sweeper.sweepInOrder order').2.Perm batch ∧
        ∀ id, (sweeper.sweepInOrder order').2.filter (fun envelope => envelope.id = id) =
          batch.filter fun envelope => envelope.id = id := by
  intro after batch
  have hclears := sweepInOrder_clears horder
  refine ⟨hclears, fun order' horder' => ?_, fun order' horder' => ?_⟩
  · obtain ⟨hbatch, hafter⟩ := hclears.again (sweepInOrder_clears horder')
    exact Prod.ext hafter hbatch
  · have hclears' := sweepInOrder_clears horder'
    exact ⟨hclears.after_unique hclears', hclears.perm hclears',
      fun id => (hclears'.of_client id).trans (hclears.of_client id).symm⟩

/-- The second client has gone and left two lines. They come before its end, and so does what the first
wrote, even if that is taken last. -/
theorem sweepInOrder_empties_back_to_front :
    let sweeper := (({} : Sweeper).attach 1 { lines := ["x"] }).attach 2
      { lines := ["a", "b"], hasEnded := true }
    [2, 1].Perm sweeper.feeds.keys ∧
      (sweeper.sweepInOrder [2, 1]).2 =
        [⟨2, .line "a"⟩, ⟨2, .line "b"⟩, ⟨1, .line "x"⟩, ⟨2, .closed⟩] ∧
      (sweeper.sweepInOrder [1, 2]).2.Perm (sweeper.sweepInOrder [2, 1]).2 ∧
      (sweeper.sweepInOrder [2, 1]).1.sweep.2 = [] := by
  intro sweeper
  have horder : [2, 1].Perm sweeper.feeds.keys := by decide
  obtain ⟨-, hagain, hother⟩ := sweepInOrder_empties horder
  refine ⟨horder, by decide, (hother [1, 2] (by decide)).2.1, ?_⟩
  rw [sweep, hagain _ (.refl _)]

end ChatRooms.Sweeper
