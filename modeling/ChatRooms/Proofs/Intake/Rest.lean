import ChatRooms.Proofs.Directory.Integrity
import ChatRooms.Proofs.Exchange.Delivery
import ChatRooms.Proofs.Intake.Sweep

namespace ChatRooms

open Std

namespace Directory

variable {directory directory' : Directory} {id : ClientId}

def feeds (directory : Directory) : ExtTreeMap ClientId Feed :=
  directory.occupants.map fun _ _ => {}

theorem getElem?_feeds (directory : Directory) (id : ClientId) :
    directory.feeds[id]? = directory.occupants[id]?.map fun _ => {} := by
  rw [feeds, ExtTreeMap.getElem?_map]

theorem mem_feeds : id ∈ directory.feeds ↔ id ∈ directory.occupants :=
  ExtTreeMap.mem_map

theorem getElem?_feeds_of_mem (hid : id ∈ directory.occupants) :
    directory.feeds[id]? = some {} := by
  obtain ⟨occupant, hid⟩ := Maps.mem_iff_exists.1 hid
  rw [getElem?_feeds, hid, Option.map_some]

theorem getElem?_feeds_of_not_mem (hid : id ∉ directory.occupants) :
    directory.feeds[id]? = none := by
  rw [getElem?_feeds, ExtTreeMap.getElem?_eq_none hid, Option.map_none]

theorem map_drained_feeds (directory : Directory) (id : ClientId) :
    directory.feeds[id]?.map Feed.drained = directory.feeds[id]? := by
  rw [getElem?_feeds, Option.map_map]
  rfl

theorem feeds_congr (h : ∀ id, id ∈ directory'.occupants ↔ id ∈ directory.occupants) :
    directory'.feeds = directory.feeds := by
  apply ExtTreeMap.ext_getElem?
  intro id
  by_cases hid : id ∈ directory.occupants
  · rw [getElem?_feeds_of_mem hid, getElem?_feeds_of_mem ((h id).2 hid)]
  · rw [getElem?_feeds_of_not_mem hid, getElem?_feeds_of_not_mem (mt (h id).1 hid)]

theorem feeds_of_insert {occupant : Occupant}
    (h : directory'.occupants = directory.occupants.insert id occupant) :
    directory'.feeds = directory.feeds.insert id {} := by
  apply ExtTreeMap.ext_getElem?
  intro other
  rw [getElem?_feeds, h, ExtTreeMap.getElem?_insert, ExtTreeMap.getElem?_insert, getElem?_feeds]
  split <;> rfl

theorem feeds_of_erase (h : directory'.occupants = directory.occupants.erase id) :
    directory'.feeds = directory.feeds.erase id := by
  apply ExtTreeMap.ext_getElem?
  intro other
  rw [getElem?_feeds, h, ExtTreeMap.getElem?_erase, ExtTreeMap.getElem?_erase, getElem?_feeds]
  split <;> rfl

theorem erase_feeds_of_not_mem (hid : id ∉ directory.occupants) :
    directory.feeds.erase id = directory.feeds :=
  Maps.erase_of_not_mem (mt mem_feeds.1 hid)

theorem insert_feeds_of_mem (hid : id ∈ directory.occupants) :
    directory.feeds.insert id {} = directory.feeds :=
  Maps.insert_of_getElem? (getElem?_feeds_of_mem hid)

end Directory

namespace Sweeper

variable {sweeper sweeper' : Sweeper} {directory : Directory} {id : ClientId}

theorem eq_of_feeds (hfeeds : ∀ id : ClientId, sweeper.feeds[id]? = sweeper'.feeds[id]?)
    (hrung : sweeper.isRung = sweeper'.isRung) : sweeper = sweeper' := by
  cases sweeper
  cases sweeper'
  obtain rfl := ExtTreeMap.ext_getElem? (by exact hfeeds)
  obtain rfl : _ = _ := hrung
  rfl

theorem silent_of_rest (h : sweeper.feeds[id]? = directory.feeds[id]?) :
    sweeper.linesOf id = [] ∧ sweeper.endsOf id = false := by
  rw [linesOf, endsOf, h, Directory.getElem?_feeds]
  cases directory.occupants[id]? <;> exact ⟨rfl, rfl⟩

theorem sweep_rest (directory : Directory) (isRung : Bool) :
    sweep { feeds := directory.feeds, isRung } = ({ feeds := directory.feeds, isRung }, []) := by
  have hsilent (id : ClientId) := @silent_of_rest { feeds := directory.feeds, isRung } _ id rfl
  apply Prod.ext
  · refine eq_of_feeds (fun id => ?_) isRung_sweep
    rw [getElem?_sweep, (hsilent id).2, if_neg Bool.false_ne_true, Directory.map_drained_feeds]
  · exact sweep_snd_of_silent hsilent

theorem sweep_insert (feed : Feed) (directory : Directory) (id : ClientId) (isRung : Bool) :
    sweep { feeds := directory.feeds.insert id feed, isRung } =
      ({ feeds :=
          if feed.hasEnded then directory.feeds.erase id
          else directory.feeds.insert id feed.drained
         isRung },
        (feed.lines.map fun line => { id, report := .line line }) ++
          if feed.hasEnded then [{ id, report := .closed }] else []) := by
  -- All other feeds are empty and open.
  let sweeper : Sweeper := { feeds := directory.feeds.insert id feed, isRung }
  have hself : sweeper.feeds[id]? = some feed := ExtTreeMap.getElem?_insert_self
  have hother {other : ClientId} (hne : other ≠ id) :
      sweeper.feeds[other]? = directory.feeds[other]? := by
    show (directory.feeds.insert id feed)[other]? = _
    rw [Maps.getElem?_insert_of_ne (Ne.symm hne)]
  apply Prod.ext
  · refine eq_of_feeds (fun other => ?_) isRung_sweep
    rw [getElem?_sweep]
    by_cases heq : other = id
    · subst heq
      rw [endsOf, hself, Option.any_some, Option.map_some]
      split <;> simp
    · rw [(silent_of_rest (hother heq)).2, if_neg Bool.false_ne_true, hother heq,
        Directory.map_drained_feeds]
      split
      next => rw [Maps.getElem?_erase_of_ne (Ne.symm heq)]
      next => rw [Maps.getElem?_insert_of_ne (Ne.symm heq)]
  · exact sweep_snd_of_single hself fun other hne => silent_of_rest (hother hne)

end Sweeper

/-- The effects that clients and their connections see. -/
def Effect.isOutward : Effect → Bool
  | deliver _ _ | hangUp _ => true
  | attach _ | detach _ => false

namespace Intake

variable {intake : Intake} {mode : IntakeMode} {capacity : Nat} {directory directory' : Directory}
  {id : ClientId} {line : String} {effects : List Effect}

def atRest (mode : IntakeMode) (capacity : Nat) (directory : Directory) : Intake :=
  match mode with
  | .addressed => addressed { capacity }
  | .sweep => sweep { feeds := directory.feeds } ∅

/-- A newcomer is offered a feed before its registration. -/
def offerFor (intake : Intake) : Event → Intake
  | .register id _ => intake.offer id
  | .exited _ | .line _ _ | .closed _ | .shutdown => intake

/-- Newcomers are visited from then on, and whoever is reclaimed no more. -/
def follow (intake : Intake) : Event → Intake
  | .register id _ => intake.attach id
  | .exited id | .closed id => intake.detach id
  | .line _ _ | .shutdown => intake

theorem offerFor_of_ne {event : Event} (hevent : ∀ id peer, event ≠ .register id peer) :
    intake.offerFor event = intake := by
  cases event with
  | register id peer => exact absurd rfl (hevent id peer)
  | exited | line | closed | shutdown => rfl

theorem isAnnounced_atRest : (atRest mode capacity directory).isAnnounced = false := by
  cases mode <;> rfl

theorem isAnnounced_offer : (intake.offer id).isAnnounced = intake.isAnnounced := by
  cases intake <;> rfl

theorem drain_atRest :
    (atRest mode capacity directory).drain = (atRest mode capacity directory, []) := by
  cases mode with
  | addressed => rfl
  | sweep =>
    rw [atRest, drain]
    dsimp only
    rw [Sweeper.sweep_rest]

theorem enqueue_of_empty (hcapacity : 0 < capacity) (envelope : Envelope) :
    enqueue { capacity } envelope = .accepted (addressed { capacity, envelopes := [envelope] }) := by
  rw [enqueue]
  dsimp only
  rw [List.length_nil, if_neg (Nat.not_le_of_lt hcapacity), List.nil_append]

theorem next?_of_forward (hcapacity : 0 < capacity)
    (hid : mode = .sweep → id ∈ directory.occupants) :
    ∃ after, (atRest mode capacity directory).forward id line = .accepted after ∧
      after.next? = some (atRest mode capacity directory, [{ id, report := .line line }]) := by
  cases mode with
  | addressed => exact ⟨_, enqueue_of_empty hcapacity _, rfl⟩
  | sweep =>
    have hfeed := Directory.getElem?_feeds_of_mem (hid rfl)
    have hattached : Sweeper.isAttached { feeds := directory.feeds } id = true := by
      rw [Sweeper.isAttached, ExtTreeMap.contains_iff_mem]
      exact Maps.mem_of_getElem? hfeed
    refine ⟨sweep { feeds := directory.feeds.insert id { lines := [line] }, isRung := true } ∅, ?_, ?_⟩
    · simp only [atRest, forward, ExtTreeMap.getElem?_empty, hattached, if_pos, Sweeper.update, hfeed]
      rfl
    · simp only [next?, Sweeper.answer, if_pos, Sweeper.hush, Sweeper.sweep_insert, Option.map_some,
        Feed.drained, Bool.false_eq_true, if_false, Directory.insert_feeds_of_mem (hid rfl)]
      rfl

theorem forward_of_not_mem (hid : id ∉ directory.occupants) :
    (atRest .sweep capacity directory).forward id line = .closed := by
  have hattached : Sweeper.isAttached { feeds := directory.feeds } id = false := by
    rw [Sweeper.isAttached, ExtTreeMap.contains_eq_isSome_getElem?,
      Directory.getElem?_feeds_of_not_mem hid]
    rfl
  simp [atRest, forward, hattached]

/-- The end of a client is reported once, and not at all if the client is not registered. -/
theorem next?_of_close (hcapacity : 0 < capacity) (mode : IntakeMode) (directory : Directory)
    (id : ClientId) :
    ∃ after batch, (atRest mode capacity directory).close id = .accepted after ∧
      after.next? = some ((atRest mode capacity directory).detach id, batch) ∧
      (batch = [{ id, report := .closed }] ∨ batch = [] ∧ id ∉ directory.occupants) := by
  cases mode with
  | addressed => exact ⟨_, _, enqueue_of_empty hcapacity _, rfl, Or.inl rfl⟩
  | sweep =>
    by_cases hid : id ∈ directory.occupants
    · have hfeed := Directory.getElem?_feeds_of_mem hid
      refine ⟨sweep { feeds := directory.feeds.insert id { hasEnded := true }, isRung := true } ∅,
        _, ?_, ?_, Or.inl rfl⟩
      · simp only [atRest, close, ExtTreeMap.getElem?_empty, Sweeper.update, hfeed]
        rfl
      · simp only [next?, Sweeper.answer, if_pos, Sweeper.hush, Sweeper.sweep_insert,
          Option.map_some, List.map_nil, List.nil_append]
        rfl
    · have hfeed := Directory.getElem?_feeds_of_not_mem hid
      refine ⟨sweep { feeds := directory.feeds, isRung := true } ∅, [], ?_, ?_, Or.inr ⟨rfl, hid⟩⟩
      · simp only [atRest, close, ExtTreeMap.getElem?_empty, Sweeper.update, hfeed]
        rfl
      · simp only [next?, Sweeper.answer, if_pos, Sweeper.hush, Sweeper.sweep_rest, Option.map_some,
          atRest, detach, Sweeper.detach, Directory.erase_feeds_of_not_mem hid]

theorem detach_detach (intake : Intake) (id : ClientId) :
    (intake.detach id).detach id = intake.detach id := by
  cases intake with
  | addressed queue => rfl
  | sweep sweeper offered =>
    show sweep { sweeper with feeds := (sweeper.feeds.erase id).erase id } offered = _
    rw [Maps.erase_erase]
    rfl

theorem detach_atRest_of_not_mem (hid : id ∉ directory.occupants) :
    (atRest mode capacity directory).detach id = atRest mode capacity directory := by
  cases mode with
  | addressed => rfl
  | sweep => simp only [atRest, detach, Sweeper.detach, Directory.erase_feeds_of_not_mem hid]

theorem foldl_absorb_of_isOutward (h : ∀ effect ∈ effects, effect.isOutward = true) :
    effects.foldl absorb intake = intake := by
  induction effects with
  | nil => rfl
  | cons effect effects ih =>
    have houtward : effect.isOutward = true := h effect List.mem_cons_self
    have hkept : intake.absorb effect = intake := by
      cases effect with
      | deliver | hangUp => rfl
      | attach | detach => cases houtward
    rw [List.foldl_cons, hkept]
    exact ih fun effect hmem => h effect (List.mem_cons_of_mem _ hmem)

theorem withdraw_offer_atRest :
    ((atRest mode capacity directory).offer id).withdraw id = atRest mode capacity directory := by
  cases mode with
  | addressed => rfl
  | sweep => simp only [atRest, offer, withdraw, Maps.erase_insert, ExtTreeMap.erase_empty]

theorem attach_offer_atRest (h : directory'.feeds = directory.feeds.insert id {}) :
    ((atRest mode capacity directory).offer id).attach id = atRest mode capacity directory' := by
  cases mode with
  | addressed => rfl
  | sweep =>
    have herased : ((∅ : ExtTreeMap ClientId Feed).insert id {}).erase id = ∅ := by
      rw [Maps.erase_insert, ExtTreeMap.erase_empty]
    simp only [atRest, offer, attach, ExtTreeMap.getElem?_insert_self, Sweeper.attach, herased, h]

theorem atRest_congr (h : directory'.feeds = directory.feeds) :
    atRest mode capacity directory' = atRest mode capacity directory := by
  cases mode with
  | addressed => rfl
  | sweep => simp only [atRest, h]

theorem detach_atRest (h : directory'.feeds = directory.feeds.erase id) :
    (atRest mode capacity directory).detach id = atRest mode capacity directory' := by
  cases mode with
  | addressed => rfl
  | sweep => simp only [atRest, detach, Sweeper.detach, h]

end Intake

end ChatRooms
