import ChatRooms.Proofs.Intake.Tour

namespace ChatRooms

open Std

namespace Sweeper

variable {sweeper : Sweeper}

theorem isRung_update (sweeper : Sweeper) (id : ClientId) (change : Feed → Feed) :
    (sweeper.update id change).isRung = sweeper.isRung := by
  unfold update
  split <;> rfl

theorem getElem?_update (sweeper : Sweeper) (id other : ClientId) (change : Feed → Feed) :
    (sweeper.update id change).feeds[other]? =
      if id = other then sweeper.feeds[other]?.map change else sweeper.feeds[other]? := by
  unfold update
  cases hfeed : sweeper.feeds[id]? with
  | none =>
    show sweeper.feeds[other]? = _
    split
    next heq => rw [← heq, hfeed, Option.map_none]
    next => rfl
  | some feed =>
    show (sweeper.feeds.insert id (change feed))[other]? = _
    rw [ExtTreeMap.getElem?_insert]
    simp only [Std.compare_eq_iff_eq]
    split
    next heq => rw [← heq, hfeed, Option.map_some]
    next => rfl

end Sweeper

/-- The sweeper between any two steps of the hub or of a worker. A feed is visited in one step, since
its worker alone could tell whether it wrote before or after the hub found the feed empty. -/
structure Watch where
  sweeper : Sweeper := {}
  tour : Option Tour := none
  /-- Whoever has written, or let go, and has yet to ring. -/
  ringers : List ClientId := []

namespace Watch

/-- Waiting for the bell, and giving up to wait, leaves everything as it is. -/
inductive Step (watch : Watch) : Watch → Prop where
  | write {id : ClientId} {feed : Feed} (line : String)
      (hfeed : watch.sweeper.feeds[id]? = some feed) (hopen : feed.hasEnded = false) :
      Step watch { watch with
        sweeper := watch.sweeper.update id (·.push line), ringers := id :: watch.ringers }
  /-- The feed may have been detached before. -/
  | letGo (id : ClientId) :
      Step watch { watch with
        sweeper := watch.sweeper.update id Feed.finish, ringers := id :: watch.ringers }
  | ring {id : ClientId} (hid : id ∈ watch.ringers) :
      Step watch { watch with sweeper := watch.sweeper.ring, ringers := watch.ringers.erase id }
  /-- The hub has waited for the bell. -/
  | answer {tour : Tour} (hfree : watch.tour = none) (hrung : watch.sweeper.isRung = true)
      (hbegins : watch.sweeper.Begins tour) :
      Step watch { watch with sweeper := watch.sweeper.hush, tour := some tour }
  /-- The hub wants to know now, and does not answer the bell. -/
  | drain {tour : Tour} (hfree : watch.tour = none) (hbegins : watch.sweeper.Begins tour) :
      Step watch { watch with tour := some tour }
  | proceed {tour tour' : Tour} {sweeper : Sweeper} (htour : watch.tour = some tour)
      (hproceed : watch.sweeper.proceed tour = some (sweeper, tour')) :
      Step watch { watch with sweeper, tour := some tour' }
  | conclude {tour : Tour} (htour : watch.tour = some tour)
      (hend : watch.sweeper.proceed tour = none) :
      Step watch { watch with sweeper := watch.sweeper.conclude tour, tour := none }
  /-- A worker does nothing before its registration, which attaches its feed. -/
  | attach (id : ClientId) (hfree : watch.tour = none) :
      Step watch { watch with sweeper := watch.sweeper.attach id {} }
  | detach (id : ClientId) (hfree : watch.tour = none) :
      Step watch { watch with sweeper := watch.sweeper.detach id }

inductive Reached : Watch → Prop where
  | start : Reached {}
  | step {watch watch' : Watch} (before : Reached watch) (hstep : Step watch watch') :
      Reached watch'

/-- The sweep under way has found the feed at its end. -/
def HasNoted (watch : Watch) (id : ClientId) : Prop :=
  ∃ tour, watch.tour = some tour ∧ id ∈ tour.haul.ended

/-- There is something in the feed that no sweep has found. -/
def Pends (watch : Watch) (id : ClientId) (feed : Feed) : Prop :=
  feed.lines ≠ [] ∨ feed.hasEnded = true ∧ ¬watch.HasNoted id

/-- Something will make the hub visit the feed. -/
def WillVisit (watch : Watch) (id : ClientId) : Prop :=
  watch.sweeper.isRung = true ∨ id ∈ watch.ringers ∨ ∃ tour, watch.tour = some tour ∧ id ∈ tour.ahead

def Vigilant (watch : Watch) : Prop :=
  ∀ (id : ClientId) (feed : Feed), watch.sweeper.feeds[id]? = some feed → watch.Pends id feed →
    watch.WillVisit id

variable {watch watch' : Watch} {id : ClientId} {feed : Feed} {sweeper : Sweeper} {tour : Tour}

/-- Nothing has happened to the feed, and whatever made the hub visit it still does. -/
theorem Vigilant.of_same (h : watch.Vigilant) (hsame : watch.sweeper.feeds[id]? = some feed)
    (hnoted : watch.HasNoted id → watch'.HasNoted id)
    (hvisit : watch.WillVisit id → watch'.WillVisit id) (hpends : watch'.Pends id feed) :
    watch'.WillVisit id := by
  have hbefore : watch.Pends id feed := hpends.imp_right (And.imp_right (mt hnoted))
  exact hvisit (h id feed hsame hbefore)

theorem willVisit_of_begins (hbegins : sweeper.Begins tour) (hfeed : sweeper.feeds[id]? = some feed)
    (htour : watch.tour = some tour) : watch.WillVisit id :=
  Or.inr (Or.inr ⟨tour, htour, hbegins.mem_ahead hfeed⟩)

theorem Vigilant.update (h : watch.Vigilant) (other : ClientId) (change : Feed → Feed) :
    Vigilant { watch with
      sweeper := watch.sweeper.update other change, ringers := other :: watch.ringers } := by
  intro id feed hfeed hpends
  by_cases heq : other = id
  · exact Or.inr (Or.inl (heq ▸ List.mem_cons_self))
  · rw [Sweeper.getElem?_update, if_neg heq] at hfeed
    refine h.of_same hfeed (fun hnoted => hnoted) (fun hvisit => ?_) hpends
    rcases hvisit with hrung | hringer | htour
    · exact Or.inl ((Sweeper.isRung_update _ _ _).trans hrung)
    · exact Or.inr (Or.inl (List.mem_cons_of_mem other hringer))
    · exact Or.inr (Or.inr htour)

/-- The feed that is visited has nothing left that is not noted, and the others keep their turn. -/
theorem Vigilant.proceed {tour' : Tour} (h : watch.Vigilant) (htour : watch.tour = some tour)
    (hproceed : watch.sweeper.proceed tour = some (sweeper, tour')) :
    Vigilant { watch with sweeper, tour := some tour' } := by
  obtain ⟨other, ahead, hahead, rfl, rfl⟩ := Sweeper.exists_of_proceed hproceed
  intro id feed hfeed hpends
  have hhaul := Sweeper.visit_snd watch.sweeper tour.haul other
  rw [Sweeper.getElem?_visit] at hfeed
  by_cases heq : other = id
  · subst heq
    rw [if_pos rfl, Option.map_eq_some_iff] at hfeed
    obtain ⟨found, hfound, rfl⟩ := hfeed
    rcases hpends with hlines | ⟨hended, hnot⟩
    · exact absurd rfl hlines
    · have hends : watch.sweeper.endsOf other = true := by
        rw [Sweeper.endsOf, hfound, Option.any_some]
        exact hended
      refine absurd ⟨_, rfl, ?_⟩ hnot
      rw [hhaul, if_pos hends]
      exact List.mem_append_right _ (List.mem_singleton_self other)
  · rw [if_neg heq] at hfeed
    refine h.of_same hfeed ?_ ?_ hpends
    · rintro ⟨found, hfound, hnoted⟩
      obtain rfl := Option.some.inj (htour.symm.trans hfound)
      refine ⟨_, rfl, ?_⟩
      rw [hhaul]
      split
      next => exact List.mem_append_left _ hnoted
      next => exact hnoted
    · rintro (hrung | hringer | ⟨found, hfound, hturn⟩)
      · have hkept := @Sweeper.isRung_foldl_visit watch.sweeper tour.haul [other]
        exact Or.inl (hkept.trans hrung)
      · exact Or.inr (Or.inl hringer)
      · obtain rfl := Option.some.inj (htour.symm.trans hfound)
        rw [hahead] at hturn
        exact Or.inr (Or.inr ⟨_, rfl, List.mem_of_ne_of_mem (Ne.symm heq) hturn⟩)

theorem Vigilant.conclude (h : watch.Vigilant) (htour : watch.tour = some tour)
    (hend : watch.sweeper.proceed tour = none) :
    Vigilant { watch with sweeper := watch.sweeper.conclude tour, tour := none } := by
  intro id feed hfeed hpends
  rw [Sweeper.conclude, Sweeper.getElem?_foldl_detach] at hfeed
  split at hfeed
  next => cases hfeed
  next hkept =>
    refine h.of_same hfeed ?_ ?_ hpends
    · rintro ⟨found, hfound, hnoted⟩
      obtain rfl := Option.some.inj (htour.symm.trans hfound)
      exact absurd hnoted hkept
    · rintro (hrung | hringer | ⟨found, hfound, hturn⟩)
      · exact Or.inl ((Sweeper.isRung_foldl_detach _).trans hrung)
      · exact Or.inr (Or.inl hringer)
      · obtain rfl := Option.some.inj (htour.symm.trans hfound)
        rw [Sweeper.proceed_eq_none.1 hend] at hturn
        cases hturn

theorem Vigilant.step (h : watch.Vigilant) (hstep : Step watch watch') : watch'.Vigilant := by
  cases hstep with
  | write line hfeed hopen => exact h.update _ _
  | letGo id => exact h.update _ _
  | ring hid => exact fun id feed hfeed hpends => Or.inl rfl
  | answer hfree hrung hbegins =>
    exact fun id feed hfeed hpends => willVisit_of_begins hbegins hfeed rfl
  | drain hfree hbegins =>
    exact fun id feed hfeed hpends => willVisit_of_begins hbegins hfeed rfl
  | proceed htour hproceed => exact h.proceed htour hproceed
  | conclude htour hend => exact h.conclude htour hend
  | attach other hfree =>
    intro id feed hfeed hpends
    change (watch.sweeper.feeds.insert other {})[id]? = some feed at hfeed
    rw [ExtTreeMap.getElem?_insert] at hfeed
    split at hfeed
    next =>
      obtain rfl := Option.some.inj hfeed
      rcases hpends with hlines | ⟨hended, -⟩
      · exact absurd rfl hlines
      · cases hended
    next => exact h id feed hfeed hpends
  | detach other hfree =>
    intro id feed hfeed hpends
    change (watch.sweeper.feeds.erase other)[id]? = some feed at hfeed
    rw [ExtTreeMap.getElem?_erase] at hfeed
    split at hfeed
    next => cases hfeed
    next => exact h id feed hfeed hpends

theorem Reached.vigilant (h : Reached watch) : watch.Vigilant := by
  induction h with
  | start =>
    intro id feed hfeed
    cases hfeed
  | step _ hstep ih => exact ih.step hstep

/-- The hub waits only when nothing is left to be found, unless somebody is about to ring. -/
theorem Reached.no_feed_left_behind (h : Reached watch) :
    (∀ (id : ClientId) (feed : Feed), watch.sweeper.feeds[id]? = some feed → watch.Pends id feed →
      watch.sweeper.isRung = true ∨ id ∈ watch.ringers ∨
        ∃ tour, watch.tour = some tour ∧ id ∈ tour.ahead) ∧
    (watch.tour = none → watch.sweeper.answer = none → watch.ringers = [] →
      ∀ (id : ClientId) (feed : Feed), watch.sweeper.feeds[id]? = some feed → feed = {}) := by
  refine ⟨h.vigilant, fun hfree hsilent hnobody id feed hfeed => ?_⟩
  have hhushed : watch.sweeper.isRung = false := by
    cases hrung : watch.sweeper.isRung with
    | false => rfl
    | true => simp [Sweeper.answer, hrung] at hsilent
  have hidle : ¬watch.WillVisit id := by
    rintro (hrung | hringer | ⟨tour, htour, -⟩)
    · exact Bool.false_ne_true (hhushed.symm.trans hrung)
    · rw [hnobody] at hringer
      cases hringer
    · rw [hfree] at htour
      cases htour
  have hdone := mt (h.vigilant id feed hfeed) hidle
  have hempty : feed.lines = [] := by
    by_contra hlines
    exact hdone (Or.inl hlines)
  have hopen : feed.hasEnded = false := by
    by_contra hended
    refine hdone (Or.inr ⟨Bool.not_eq_false _ ▸ hended, ?_⟩)
    rintro ⟨tour, htour, -⟩
    rw [hfree] at htour
    cases htour
  obtain ⟨lines, hasEnded⟩ := feed
  obtain rfl : lines = [] := hempty
  obtain rfl : hasEnded = false := hopen
  rfl

set_option maxRecDepth 20000 in
/-- A worker writes again to a feed that the sweep under way has left, and the bell has been answered. -/
theorem no_feed_left_behind_after_visit : ∃ watch : Watch, Reached watch ∧ watch.tour = none ∧
    watch.sweeper.feeds[1]? = some { lines := ["again"] } ∧ watch.sweeper.isRung = false ∧
    1 ∈ watch.ringers := by
  have h₁ := Reached.start.step (.attach 1 rfl)
  have h₂ := h₁.step (.attach 2 rfl)
  have h₃ := h₂.step (@Step.write _ 1 {} "hello" rfl rfl)
  have h₄ := h₃.step (@Step.ring _ 1 (by decide))
  have h₅ := h₄.step (@Step.answer _ { ahead := [1, 2] } rfl rfl ⟨rfl, by decide⟩)
  have h₆ := h₅.step (@Step.proceed _ { ahead := [1, 2] } _ _ rfl rfl)
  have h₇ := h₆.step (@Step.write _ 1 {} "again" rfl rfl)
  have h₈ := h₇.step (.proceed rfl rfl)
  have h₉ := h₈.step (.conclude rfl rfl)
  refine ⟨_, h₉, rfl, rfl, rfl, ?_⟩
  rcases h₉.no_feed_left_behind.1 1 { lines := ["again"] } rfl (Or.inl (by decide)) with
    hrung | hringer | ⟨tour, htour, -⟩
  · cases hrung
  · exact hringer
  · cases htour

end Watch

end ChatRooms
