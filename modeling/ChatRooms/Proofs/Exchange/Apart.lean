import ChatRooms.Proofs.Exchange.Matching

namespace ChatRooms

open Std

variable {apart : ClientId → Prop} {id : ClientId} {change : Outbox → Outbox}

/-- No more is asked of the outboxes of clients that are to be told apart. -/
def Likeness.but (apart : ClientId → Prop) : Likeness :=
  fun id outbox outbox' => ¬apart id → outbox' = outbox

theorem Likeness.lasts_but : (but apart).Lasts where
  refl _ _ _ := rfl
  map _ h hid := by rw [h hid]

namespace Exchange

variable {exchange exchange' exchange'' : Exchange}

/-- The same, but perhaps for the outboxes of clients that are to be told apart. -/
def SameBut (apart : ClientId → Prop) (exchange exchange' : Exchange) : Prop :=
  ∃ outboxes, exchange' = { exchange with outboxes } ∧
    ∀ id, ¬apart id → outboxes[id]? = exchange.outboxes[id]?

namespace SameBut

theorem refl (exchange : Exchange) : SameBut apart exchange exchange :=
  ⟨exchange.outboxes, rfl, fun _ _ => rfl⟩

theorem symm (h : SameBut apart exchange exchange') : SameBut apart exchange' exchange := by
  obtain ⟨outboxes, rfl, hothers⟩ := h
  exact ⟨exchange.outboxes, rfl, fun id hid => (hothers id hid).symm⟩

theorem trans (h : SameBut apart exchange exchange') (h' : SameBut apart exchange' exchange'') :
    SameBut apart exchange exchange'' := by
  obtain ⟨outboxes, rfl, hothers⟩ := h
  obtain ⟨outboxes', rfl, hothers'⟩ := h'
  exact ⟨outboxes', rfl, fun id hid => (hothers' id hid).trans (hothers id hid)⟩

/-- What is done to the outbox of a client that is told apart is not looked at. -/
theorem of_updateOutbox (hid : apart id) :
    SameBut apart exchange (exchange.updateOutbox id change) := by
  refine ⟨_, rfl, fun other hother => ?_⟩
  have hne : id ≠ other := by
    rintro rfl
    exact hother hid
  have hkept := @getElem?_updateOutbox exchange other id change
  rw [if_neg hne] at hkept
  exact hkept

end SameBut

end Exchange

def Choice.reader? : Choice → Option ClientId
  | .take id | .stopReading id => some id
  | _ => none

def Happening.reader? : Happening → Option ClientId
  | taken id _ => some id
  | forwarded _ _ | handled _ _ => none

namespace Floor

variable {floor floor' floor'' after after' : Floor} {choice : Choice}
  {choices choices' : List Choice} {happenings trace trace' : List Happening}

def SameBut (apart : ClientId → Prop) (floor floor' : Floor) : Prop :=
  ∃ exchange, floor' = { floor with exchange } ∧ floor.exchange.SameBut apart exchange

namespace SameBut

theorem refl (floor : Floor) : SameBut apart floor floor :=
  ⟨floor.exchange, rfl, .refl _⟩

theorem symm (h : SameBut apart floor floor') : SameBut apart floor' floor := by
  obtain ⟨exchange, rfl, hexchange⟩ := h
  exact ⟨floor.exchange, rfl, hexchange.symm⟩

theorem trans (h : SameBut apart floor floor') (h' : SameBut apart floor' floor'') :
    SameBut apart floor floor'' := by
  obtain ⟨exchange, rfl, hexchange⟩ := h
  obtain ⟨exchange', rfl, hexchange'⟩ := h'
  exact ⟨exchange', rfl, hexchange.trans hexchange'⟩

theorem choose (h : SameBut apart floor floor')
    (hreader : ∀ id, choice.reader? = some id → ¬apart id)
    (hchoose : floor.choose choice = some (happenings, after)) :
    ∃ after', floor'.choose choice = some (happenings, after') ∧ SameBut apart after after' := by
  have hmatches : Matches (.but apart) floor floor' := h
  by_cases htake : ∃ id, choice = .take id
  · obtain ⟨id, rfl⟩ := htake
    have hid : ¬apart id := hreader id rfl
    exact hmatches.take Likeness.lasts_but (fun _ _ hsame => hsame hid) hchoose
  · exact hmatches.choose Likeness.lasts_but (fun id hid => htake ⟨id, hid⟩) hchoose

theorem of_choose {reader : ClientId} (hreader : choice.reader? = some reader)
    (hapart : apart reader) (hchoose : floor.choose choice = some (happenings, after)) :
    SameBut apart floor after ∧
      (happenings = [] ∨ ∃ line, happenings = [.taken reader line]) := by
  cases choice <;> simp only [Choice.reader?, reduceCtorEq, Option.some.injEq] at hreader <;>
    subst hreader
  case take =>
    obtain ⟨outbox, outbox', line, houtbox, htaking, rfl, rfl⟩ := choose_take_eq_some.1 hchoose
    exact ⟨⟨_, rfl, .of_updateOutbox hapart⟩, Or.inr ⟨line, rfl⟩⟩
  case stopReading =>
    obtain ⟨rfl, rfl⟩ := Prod.mk.inj (Option.some.inj hchoose)
    exact ⟨⟨_, rfl, .of_updateOutbox hapart⟩, Or.inl rfl⟩

end SameBut

theorem reader?_of_choose (hchoose : floor.choose choice = some (happenings, after))
    {happening : Happening} (hmem : happening ∈ happenings)
    (hreader : happening.reader? = some id) : choice.reader? = some id := by
  cases choice <;>
    simp only [choose, Option.bind_eq_bind, Option.bind_eq_some_iff, guard_eq_some,
      exists_const, Option.pure_def, Option.some.injEq, Prod.mk.injEq, Prod.exists,
      uncons?_eq_some] at hchoose
  case take reader =>
    obtain ⟨outbox, houtbox, outbox', line, htaking, rfl, rfl⟩ := hchoose
    rw [List.mem_singleton.1 hmem] at hreader
    exact hreader
  case order =>
    obtain ⟨hfree, hready, order, orders, horders, hstays, rfl, rfl⟩ := hchoose
    unfold Exchange.announced at hmem
    split at hmem <;> simp_all [Happening.reader?]
  all_goals grind [Happening.reader?]

theorem filter_reader?_of_choose (hchoose : floor.choose choice = some (happenings, after))
    (hreader : choice.reader? ≠ some id) :
    happenings.filter (·.reader? ≠ some id) = happenings := by
  apply List.filter_eq_self.2
  intro happening hmem
  exact decide_eq_true fun hread => hreader (reader?_of_choose hchoose hmem hread)

theorem SameBut.play {x : ClientId} (h : SameBut (· = x) floor floor')
    (hplay : floor.play choices = some (trace, after)) :
    ∃ after', floor'.play (choices.filter (·.reader? ≠ some x)) =
        some (trace.filter (·.reader? ≠ some x), after') ∧ SameBut (· = x) after after' := by
  induction choices generalizing floor floor' trace with
  | nil =>
    cases hplay
    exact ⟨floor', rfl, h⟩
  | cons choice choices ih =>
    obtain ⟨happenings, between, rest, hchoose, hrest, rfl⟩ := play_cons_eq_some.1 hplay
    by_cases hreader : choice.reader? = some x
    · obtain ⟨hbetween, hseen⟩ : SameBut (· = x) floor between ∧ _ :=
        of_choose hreader rfl hchoose
      obtain ⟨after', hplay', hafter⟩ := ih (hbetween.symm.trans h) hrest
      refine ⟨after', ?_, hafter⟩
      have hunseen : happenings.filter (·.reader? ≠ some x) = [] := by
        rcases hseen with rfl | ⟨line, rfl⟩ <;> simp [Happening.reader?]
      rw [List.filter_cons_of_neg (by simpa using hreader), List.filter_append, hunseen,
        List.nil_append]
      exact hplay'
    · have hother : ∀ reader, choice.reader? = some reader → ¬reader = x := by
        rintro reader hread rfl
        exact hreader hread
      obtain ⟨between', hchoose', hbetween⟩ := h.choose hother hchoose
      obtain ⟨after', hplay', hafter⟩ := ih hbetween hrest
      refine ⟨after', ?_, hafter⟩
      rw [List.filter_cons_of_pos (by simpa using hreader), List.filter_append,
        filter_reader?_of_choose hchoose hreader]
      exact play_cons_eq_some.2 ⟨_, _, _, hchoose', hplay', rfl⟩

end Floor

end ChatRooms
