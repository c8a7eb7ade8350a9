import ChatRooms.Proofs.Intake.Tour

namespace ChatRooms

open Std

variable {intake after : Intake} {id other : ClientId} {line : String} {batch : List Envelope}

namespace Sweeper

variable {sweeper : Sweeper} {change : Feed → Feed} {tour : Tour}

theorem mem_feeds_update : other ∈ (sweeper.update id change).feeds ↔ other ∈ sweeper.feeds := by
  unfold update
  split
  next feed hfeed =>
    rw [attach, ExtTreeMap.mem_insert, Std.compare_eq_iff_eq, or_iff_right_iff_imp]
    rintro rfl
    exact Maps.mem_of_getElem? hfeed
  next => rfl

theorem mem_feeds_visit {haul : Haul} :
    other ∈ (visit (sweeper, haul) id).1.feeds ↔ other ∈ sweeper.feeds := by
  rw [ExtTreeMap.mem_iff_isSome_getElem?, getElem?_visit, ExtTreeMap.mem_iff_isSome_getElem?]
  split
  next => rw [Option.isSome_map]
  next => rfl

theorem mem_feeds_of_mem_conclude (h : id ∈ (sweeper.conclude tour).feeds) : id ∈ sweeper.feeds := by
  rw [conclude, ExtTreeMap.mem_iff_isSome_getElem?, getElem?_foldl_detach] at h
  split at h
  next => cases h
  next => exact ExtTreeMap.mem_iff_isSome_getElem?.2 h

end Sweeper

namespace Intake

/-- The hub visits the client's feed. In a shared queue nobody has one. -/
def Visits (intake : Intake) (id : ClientId) : Prop :=
  match intake with
  | addressed _ => False
  | sweep sweeper _ => id ∈ sweeper.feeds

def Narrows (after before : Intake) : Prop :=
  ∀ id, after.Visits id → before.Visits id

theorem Narrows.refl (intake : Intake) : intake.Narrows intake :=
  fun _ hvisits => hvisits

theorem Narrows.trans {between : Intake} (h : after.Narrows between) (h' : between.Narrows intake) :
    after.Narrows intake :=
  fun id hvisits => h' id (h id hvisits)

theorem visits_attach (h : (intake.attach id).Visits other) : intake.Visits other ∨ other = id := by
  cases intake with
  | addressed queue => exact h.elim
  | sweep sweeper offered =>
    rw [attach] at h
    cases hfeed : offered[id]? with
    | none =>
      rw [hfeed] at h
      exact Or.inl h
    | some feed =>
      rw [hfeed] at h
      rcases ExtTreeMap.mem_insert.1 (by exact h) with heq | hmem
      · exact Or.inr (Std.compare_eq_iff_eq.1 heq).symm
      · exact Or.inl hmem

theorem visits_detach (h : (intake.detach id).Visits other) : intake.Visits other ∧ other ≠ id := by
  cases intake with
  | addressed queue => exact h.elim
  | sweep sweeper offered =>
    obtain ⟨hne, hmem⟩ := ExtTreeMap.mem_erase.1 (by exact h)
    exact ⟨hmem, fun heq => hne (Std.compare_eq_iff_eq.2 heq.symm)⟩

theorem detach_of_not_visits (h : ¬intake.Visits id) : intake.detach id = intake := by
  cases intake with
  | addressed queue => rfl
  | sweep sweeper offered =>
    rw [detach, Sweeper.detach, Maps.erase_of_not_mem (by exact h)]

theorem visits_enqueue {queue : SharedQueue} {envelope : Envelope}
    (h : enqueue queue envelope = .accepted after) : after.Visits other ↔ False := by
  unfold enqueue at h
  split at h
  next => cases h
  next =>
    obtain rfl := Posting.accepted.inj h
    exact Iff.rfl

theorem visits_write (h : intake.write id line = .accepted after) :
    after.Visits other ↔ intake.Visits other := by
  cases intake with
  | addressed queue => exact visits_enqueue h
  | sweep sweeper offered =>
    unfold write at h
    dsimp only at h
    split at h
    next =>
      obtain rfl := Posting.accepted.inj h
      exact Iff.rfl
    next =>
      split at h
      next =>
        obtain rfl := Posting.accepted.inj h
        exact Sweeper.mem_feeds_update
      next => cases h

theorem visits_letGo (h : intake.letGo id = .accepted after) :
    after.Visits other ↔ intake.Visits other := by
  cases intake with
  | addressed queue => exact visits_enqueue h
  | sweep sweeper offered =>
    unfold letGo at h
    dsimp only at h
    split at h
    next =>
      obtain rfl := Posting.accepted.inj h
      exact Iff.rfl
    next =>
      obtain rfl := Posting.accepted.inj h
      exact Sweeper.mem_feeds_update

theorem visits_gather {round round' : Round} (h : intake.gather round = some (after, round')) :
    after.Visits other ↔ intake.Visits other := by
  unfold gather at h
  split at h
  next =>
    split at h
    next => cases h
    next =>
      obtain ⟨rfl, -⟩ := Prod.mk.inj (Option.some.inj h)
      exact Iff.rfl
  next =>
    obtain ⟨⟨sweeper', tour'⟩, hproceed, heq⟩ := Option.map_eq_some_iff.1 h
    obtain ⟨rfl, -⟩ := Prod.mk.inj heq
    obtain ⟨_, _, -, rfl, -⟩ := Sweeper.exists_of_proceed hproceed
    exact Sweeper.mem_feeds_visit
  next => cases h
  next => cases h

namespace Narrows

theorem offer : (intake.offer id).Narrows intake := by
  cases intake <;> exact .refl _

theorem withdraw : (intake.withdraw id).Narrows intake := by
  cases intake <;> exact .refl _

theorem detach : (intake.detach id).Narrows intake :=
  fun _ hvisits => (visits_detach hvisits).1

theorem ring : intake.ring.Narrows intake := by
  cases intake <;> exact .refl _

theorem hush : intake.hush.Narrows intake := by
  cases intake <;> exact .refl _

theorem write (h : intake.write id line = .accepted after) : after.Narrows intake :=
  fun _ => (visits_write h).1

theorem letGo (h : intake.letGo id = .accepted after) : after.Narrows intake :=
  fun _ => (visits_letGo h).1

theorem gather {round round' : Round} (h : intake.gather round = some (after, round')) :
    after.Narrows intake :=
  fun _ => (visits_gather h).1

theorem conclude (intake : Intake) (round : Round) : (intake.conclude round).Narrows intake := by
  unfold Intake.conclude
  split
  next => exact fun _ hvisits => Sweeper.mem_feeds_of_mem_conclude hvisits
  next => exact .refl _

theorem gathers {before gathered : Intake × Round} (h : Gathers before gathered) :
    gathered.1.Narrows before.1 := by
  induction h with
  | refl => exact .refl _
  | tail _ hgather ih => exact (gather hgather).trans ih

theorem drain (intake : Intake) : intake.drain.1.Narrows intake := by
  obtain ⟨_, last, gathered, -, hgathers, -, hdrain⟩ := intake.exists_gathers_drain
  rw [hdrain]
  exact (conclude gathered last).trans (gathers hgathers)

theorem next? (h : intake.next? = some (after, batch)) : after.Narrows intake := by
  rw [next?_eq_drain] at h
  split at h
  next =>
    have hafter : intake.hush.drain.1 = after := congrArg Prod.fst (Option.some.inj h)
    exact hafter ▸ (drain _).trans hush
  next => cases h

end Narrows

end Intake

end ChatRooms
