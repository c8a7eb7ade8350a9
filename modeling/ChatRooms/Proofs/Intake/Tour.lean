import ChatRooms.Proofs.Intake.Sweep
import Mathlib.Logic.Relation

namespace ChatRooms

open Std

/-- A sweep under way. -/
structure Tour where
  haul : Haul := {}
  /-- The feeds that are still to be visited. -/
  ahead : List ClientId
  deriving DecidableEq, Repr

namespace Sweeper

/-- A sweep may take the feeds in any order. -/
def Begins (sweeper : Sweeper) (tour : Tour) : Prop :=
  tour.haul = {} ∧ tour.ahead.Perm sweeper.feeds.keys

def proceed (sweeper : Sweeper) (tour : Tour) : Option (Sweeper × Tour) :=
  match tour.ahead with
  | [] => none
  | id :: ahead =>
    let (sweeper, haul) := visit (sweeper, tour.haul) id
    some (sweeper, { haul, ahead })

/-- At the end of a sweep the feeds that have ended are detached. -/
def conclude (sweeper : Sweeper) (tour : Tour) : Sweeper :=
  tour.haul.ended.foldl detach sweeper

variable {sweeper : Sweeper} {tour : Tour}

theorem proceed_eq_none : sweeper.proceed tour = none ↔ tour.ahead = [] := by
  unfold proceed
  cases tour.ahead with
  | nil => exact ⟨fun _ => rfl, fun _ => rfl⟩
  | cons id ahead => exact ⟨fun h => (by cases h), fun h => (by cases h)⟩

theorem exists_of_proceed {sweeper' : Sweeper} {tour' : Tour}
    (h : sweeper.proceed tour = some (sweeper', tour')) :
    ∃ id ahead, tour.ahead = id :: ahead ∧ sweeper' = (visit (sweeper, tour.haul) id).1 ∧
      tour' = { haul := (visit (sweeper, tour.haul) id).2, ahead } := by
  unfold proceed at h
  split at h
  next => cases h
  next id ahead hahead =>
    obtain ⟨rfl, rfl⟩ := Prod.mk.inj (Option.some.inj h)
    exact ⟨id, ahead, hahead, rfl, rfl⟩

theorem Begins.mem_ahead (h : sweeper.Begins tour) {id : ClientId} {feed : Feed}
    (hfeed : sweeper.feeds[id]? = some feed) : id ∈ tour.ahead := by
  have hkey : id ∈ sweeper.feeds.keys := ExtTreeMap.mem_keys.2 (Maps.mem_of_getElem? hfeed)
  exact h.2.mem_iff.2 hkey

end Sweeper

/-- A batch that is being gathered. -/
inductive Round where
  | queue (taken : List Envelope)
  | feeds (tour : Tour)
  deriving DecidableEq, Repr

def Round.batch : Round → List Envelope
  | queue taken => taken
  | feeds tour => tour.haul.batch

namespace Intake

/-- Puts a line where the hub will find it. The worker has yet to ring. -/
def write (intake : Intake) (id : ClientId) (line : String) : Posting Intake :=
  match intake with
  | addressed queue => enqueue queue { id, report := .line line }
  | sweep sweeper offered =>
    match offered[id]? with
    | some feed => .accepted (sweep sweeper (offered.insert id (feed.push line)))
    | none =>
      if sweeper.isAttached id then .accepted (sweep (sweeper.update id (·.push line)) offered)
      else .closed

/-- Lets go of a worker's end. The worker has yet to ring. -/
def letGo (intake : Intake) (id : ClientId) : Posting Intake :=
  match intake with
  | addressed queue => enqueue queue { id, report := .closed }
  | sweep sweeper offered =>
    match offered[id]? with
    | some feed => .accepted (sweep sweeper (offered.insert id feed.finish))
    | none => .accepted (sweep (sweeper.update id Feed.finish) offered)

def hush (intake : Intake) : Intake :=
  match intake with
  | addressed queue => addressed queue
  | sweep sweeper offered => sweep sweeper.hush offered

def Begins : Intake → Round → Prop
  | addressed _, .queue taken => taken = []
  | sweep sweeper _, .feeds tour => sweeper.Begins tour
  | addressed _, .feeds _ | sweep _ _, .queue _ => False

/-- Adds the next envelope, or what is in the next feed, unless there is no more. -/
def gather (intake : Intake) (round : Round) : Option (Intake × Round) :=
  match intake, round with
  | addressed queue, .queue taken =>
    match queue.envelopes with
    | [] => none
    | envelope :: envelopes =>
      some (addressed { queue with envelopes }, .queue (taken ++ [envelope]))
  | sweep sweeper offered, .feeds tour =>
    (sweeper.proceed tour).map fun (sweeper, tour) => (sweep sweeper offered, .feeds tour)
  | addressed _, .feeds _ | sweep _ _, .queue _ => none

def conclude (intake : Intake) (round : Round) : Intake :=
  match intake, round with
  | sweep sweeper offered, .feeds tour => sweep (sweeper.conclude tour) offered
  | intake, _ => intake

variable {intake : Intake} {id : ClientId} {line : String} {queue : SharedQueue}
  {envelope : Envelope}

/-- A worker's end is let go of, unless there is no place for it in the shared queue. -/
theorem letGo_cases (intake : Intake) (id : ClientId) :
    (∃ after, intake.letGo id = .accepted after) ∨
      intake.letGo id = .full ∧ intake.mode = .addressed := by
  cases intake with
  | addressed queue =>
    rw [letGo, enqueue]
    split
    next => exact Or.inr ⟨rfl, rfl⟩
    next => exact Or.inl ⟨_, rfl⟩
  | sweep sweeper offered =>
    rw [letGo]
    split <;> exact Or.inl ⟨_, rfl⟩

theorem exists_of_map_ring {posting : Posting Intake}
    (h : posting.map ring = .accepted intake) :
    ∃ put, posting = .accepted put ∧ intake = put.ring := by
  cases posting with
  | accepted put => exact ⟨put, rfl, (Posting.accepted.inj h).symm⟩
  | full | closed => cases h

theorem map_ring_enqueue : (enqueue queue envelope).map ring = enqueue queue envelope := by
  unfold enqueue
  split <;> rfl

theorem forward_eq_map_ring (intake : Intake) (id : ClientId) (line : String) :
    intake.forward id line = (intake.write id line).map ring := by
  cases intake with
  | addressed queue => exact map_ring_enqueue.symm
  | sweep sweeper offered =>
    unfold forward write
    dsimp only
    cases offered[id]? with
    | some feed => rfl
    | none => cases sweeper.isAttached id <;> rfl

theorem close_eq_map_ring (intake : Intake) (id : ClientId) :
    intake.close id = (intake.letGo id).map ring := by
  cases intake with
  | addressed queue => exact map_ring_enqueue.symm
  | sweep sweeper offered =>
    unfold close letGo
    dsimp only
    cases offered[id]? <;> rfl

abbrev Gathers : Intake × Round → Intake × Round → Prop :=
  Relation.ReflTransGen fun before after => before.1.gather before.2 = some after

theorem gathers_queue (queue : SharedQueue) (taken : List Envelope) :
    Gathers (addressed queue, .queue taken)
      (addressed { queue with envelopes := [] }, .queue (taken ++ queue.envelopes)) := by
  obtain ⟨capacity, envelopes⟩ := queue
  induction envelopes generalizing taken with
  | nil =>
    rw [List.append_nil]
  | cons envelope envelopes ih =>
    have hstep := ih (taken ++ [envelope])
    rw [List.append_assoc, List.singleton_append] at hstep
    exact .head rfl hstep

theorem gathers_feeds (sweeper : Sweeper) (offered : ExtTreeMap ClientId Feed) (haul : Haul)
    (ahead : List ClientId) :
    Gathers (sweep sweeper offered, .feeds { haul, ahead })
      (sweep (ahead.foldl Sweeper.visit (sweeper, haul)).1 offered,
        .feeds { haul := (ahead.foldl Sweeper.visit (sweeper, haul)).2, ahead := [] }) := by
  induction ahead generalizing sweeper haul with
  | nil => exact .refl
  | cons id ahead ih =>
    have hstep := ih (Sweeper.visit (sweeper, haul) id).1 (Sweeper.visit (sweeper, haul) id).2
    exact .head rfl hstep

theorem exists_gathers_drain (intake : Intake) : ∃ first last gathered, intake.Begins first ∧
    Gathers (intake, first) (gathered, last) ∧ gathered.gather last = none ∧
    intake.drain = (gathered.conclude last, last.batch) := by
  cases intake with
  | addressed queue => exact ⟨.queue [], _, _, rfl, gathers_queue queue [], rfl, rfl⟩
  | sweep sweeper offered =>
    exact ⟨.feeds { ahead := sweeper.feeds.keys }, _, _, ⟨rfl, .refl _⟩,
      gathers_feeds sweeper offered {} sweeper.feeds.keys, rfl, rfl⟩

/-- Taking the next batch is draining the intake when something has been announced. -/
theorem next?_eq_drain (intake : Intake) :
    intake.next? = if intake.isAnnounced then some intake.hush.drain else none := by
  cases intake with
  | addressed queue =>
    obtain ⟨capacity, envelopes⟩ := queue
    cases envelopes <;> rfl
  | sweep sweeper offered =>
    obtain ⟨feeds, isRung⟩ := sweeper
    cases isRung <;> rfl

end Intake

end ChatRooms
