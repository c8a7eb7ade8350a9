import ChatRooms.Proofs.Exchange.Schedule

namespace ChatRooms

open Std

variable {f : String → String} {id : ClientId}

def Report.mapLine (f : String → String) : Report → Report
  | .line text => .line (f text)
  | .closed => .closed

def Envelope.mapLine (f : String → String) (envelope : Envelope) : Envelope :=
  { envelope with report := envelope.report.mapLine f }

def Event.mapLine (f : String → String) : Event → Event
  | .line id text => .line id (f text)
  | .register id peer => .register id peer
  | .exited id => .exited id
  | .closed id => .closed id
  | .shutdown => .shutdown

theorem Envelope.event_mapLine (envelope : Envelope) :
    (envelope.mapLine f).event = envelope.event.mapLine f := by
  obtain ⟨id, report⟩ := envelope
  cases report <;> rfl

theorem Posting.accepted?_map {α β : Type} {g : α → β} (posting : Posting α) :
    (posting.map g).accepted? = posting.accepted?.map g := by
  cases posting <;> rfl

def Feed.mapLines (f : String → String) (feed : Feed) : Feed :=
  { feed with lines := feed.lines.map f }

theorem Feed.mapLines_push (feed : Feed) (line : String) :
    (feed.push line).mapLines f = (feed.mapLines f).push (f line) := by
  rw [push, mapLines, List.map_append]
  rfl

def mapFeeds (f : String → String) (feeds : ExtTreeMap ClientId Feed) : ExtTreeMap ClientId Feed :=
  feeds.map fun _ => Feed.mapLines f

section Feeds

variable {feeds : ExtTreeMap ClientId Feed} {feed : Feed}

@[simp] theorem getElem?_mapFeeds : (mapFeeds f feeds)[id]? = feeds[id]?.map (Feed.mapLines f) :=
  ExtTreeMap.getElem?_map

theorem contains_mapFeeds : (mapFeeds f feeds).contains id = feeds.contains id :=
  ExtTreeMap.contains_map

theorem keys_mapFeeds : (mapFeeds f feeds).keys = feeds.keys :=
  ExtTreeMap.keys_map

theorem mapFeeds_insert :
    mapFeeds f (feeds.insert id feed) = (mapFeeds f feeds).insert id (feed.mapLines f) := by
  apply ExtTreeMap.ext_getElem?
  intro other
  rw [getElem?_mapFeeds, ExtTreeMap.getElem?_insert, ExtTreeMap.getElem?_insert, getElem?_mapFeeds]
  split <;> rfl

theorem mapFeeds_erase : mapFeeds f (feeds.erase id) = (mapFeeds f feeds).erase id := by
  apply ExtTreeMap.ext_getElem?
  intro other
  rw [getElem?_mapFeeds, ExtTreeMap.getElem?_erase, ExtTreeMap.getElem?_erase, getElem?_mapFeeds]
  split <;> rfl

end Feeds

def Haul.mapLines (f : String → String) (haul : Haul) : Haul :=
  { haul with lines := haul.lines.map (Envelope.mapLine f) }

theorem Haul.batch_mapLines (haul : Haul) :
    (haul.mapLines f).batch = haul.batch.map (Envelope.mapLine f) := by
  rw [batch, batch, List.map_append, List.map_map]
  rfl

def Tour.mapLines (f : String → String) (tour : Tour) : Tour :=
  { tour with haul := tour.haul.mapLines f }

namespace Sweeper

variable {sweeper : Sweeper}

def mapLines (f : String → String) (sweeper : Sweeper) : Sweeper :=
  { sweeper with feeds := mapFeeds f sweeper.feeds }

theorem mapLines_attach (feed : Feed) :
    (sweeper.attach id feed).mapLines f = (sweeper.mapLines f).attach id (feed.mapLines f) := by
  rw [attach, mapLines, mapFeeds_insert]
  rfl

theorem mapLines_detach : (sweeper.detach id).mapLines f = (sweeper.mapLines f).detach id := by
  rw [detach, mapLines, mapFeeds_erase]
  rfl

theorem isAttached_mapLines : (sweeper.mapLines f).isAttached id = sweeper.isAttached id :=
  contains_mapFeeds

theorem mapLines_update (change change' : Feed → Feed)
    (hchange : ∀ feed, (change feed).mapLines f = change' (feed.mapLines f)) :
    (sweeper.update id change).mapLines f = (sweeper.mapLines f).update id change' := by
  have hfeed : (sweeper.mapLines f).feeds[id]? = sweeper.feeds[id]?.map (Feed.mapLines f) :=
    getElem?_mapFeeds
  rw [update, update, hfeed]
  cases sweeper.feeds[id]? with
  | none => rfl
  | some feed =>
    dsimp only [Option.map_some]
    rw [mapLines_attach, hchange]

theorem visit_mapLines (haul : Haul) (id : ClientId) :
    visit (sweeper.mapLines f, haul.mapLines f) id =
      ((visit (sweeper, haul) id).1.mapLines f, (visit (sweeper, haul) id).2.mapLines f) := by
  have hfeed : (sweeper.mapLines f).feeds[id]? = sweeper.feeds[id]?.map (Feed.mapLines f) :=
    getElem?_mapFeeds
  unfold visit
  dsimp only
  rw [hfeed]
  cases sweeper.feeds[id]? with
  | none => rfl
  | some feed =>
    have hlines : (haul.mapLines f).lines ++ (feed.mapLines f).lines.map (fun line =>
          ({ id, report := .line line } : Envelope)) =
        (haul.lines ++ feed.lines.map fun line =>
          ({ id, report := .line line } : Envelope)).map (Envelope.mapLine f) := by
      rw [Feed.mapLines, Haul.mapLines, List.map_append, List.map_map, List.map_map]
      rfl
    dsimp only [Option.map_some]
    rw [mapLines_attach, hlines]
    rfl

theorem proceed_mapLines (tour : Tour) :
    (sweeper.mapLines f).proceed (tour.mapLines f) =
      (sweeper.proceed tour).map fun after => (after.1.mapLines f, after.2.mapLines f) := by
  obtain ⟨haul, ahead⟩ := tour
  cases ahead with
  | nil => rfl
  | cons id ahead =>
    simp only [proceed, Tour.mapLines, visit_mapLines, Option.map_some]

theorem conclude_mapLines (tour : Tour) :
    (sweeper.mapLines f).conclude (tour.mapLines f) = (sweeper.conclude tour).mapLines f := by
  unfold conclude
  show tour.haul.ended.foldl detach (sweeper.mapLines f) = _
  induction tour.haul.ended generalizing sweeper with
  | nil => rfl
  | cons id ended ih => rw [List.foldl_cons, List.foldl_cons, ← mapLines_detach, ih]

end Sweeper

def Round.mapLines (f : String → String) : Round → Round
  | queue taken => queue (taken.map (Envelope.mapLine f))
  | feeds tour => feeds (tour.mapLines f)

theorem Round.batch_mapLines (round : Round) :
    (round.mapLines f).batch = round.batch.map (Envelope.mapLine f) := by
  cases round with
  | queue taken => rfl
  | feeds tour => exact tour.haul.batch_mapLines

def SharedQueue.mapLines (f : String → String) (queue : SharedQueue) : SharedQueue :=
  { queue with envelopes := queue.envelopes.map (Envelope.mapLine f) }

namespace Intake

variable {intake : Intake}

def mapLines (f : String → String) : Intake → Intake
  | addressed queue => addressed (queue.mapLines f)
  | sweep sweeper offered => sweep (sweeper.mapLines f) (mapFeeds f offered)

theorem enqueue_mapLines (queue : SharedQueue) (envelope : Envelope) :
    enqueue (queue.mapLines f) (envelope.mapLine f) = (enqueue queue envelope).map (mapLines f) := by
  simp only [enqueue, SharedQueue.mapLines, List.length_map]
  split
  next => rfl
  next => simp only [Posting.map, mapLines, SharedQueue.mapLines, List.map_append, List.map_singleton]

theorem write_mapLines (intake : Intake) (id : ClientId) (line : String) :
    (intake.mapLines f).write id (f line) = (intake.write id line).map (mapLines f) := by
  cases intake with
  | addressed queue => exact enqueue_mapLines queue { id, report := .line line }
  | sweep sweeper offered =>
    rw [mapLines, write, write, getElem?_mapFeeds, Sweeper.isAttached_mapLines]
    cases offered[id]? with
    | some feed =>
      dsimp only [Option.map_some, Posting.map, mapLines]
      rw [mapFeeds_insert, Feed.mapLines_push]
    | none =>
      dsimp only [Option.map_none]
      split
      next =>
        rw [Posting.map, mapLines, Sweeper.mapLines_update (·.push line) (·.push (f line))
          fun feed => feed.mapLines_push line]
      next => rfl

theorem letGo_mapLines (intake : Intake) (id : ClientId) :
    (intake.mapLines f).letGo id = (intake.letGo id).map (mapLines f) := by
  cases intake with
  | addressed queue => exact enqueue_mapLines queue { id, report := .closed }
  | sweep sweeper offered =>
    rw [mapLines, letGo, letGo, getElem?_mapFeeds]
    cases offered[id]? with
    | some feed =>
      dsimp only [Option.map_some, Posting.map, mapLines]
      rw [mapFeeds_insert]
      rfl
    | none =>
      dsimp only [Option.map_none, Posting.map, mapLines]
      rw [Sweeper.mapLines_update Feed.finish Feed.finish fun _ => rfl]

theorem ring_mapLines (intake : Intake) : (intake.mapLines f).ring = intake.ring.mapLines f := by
  cases intake <;> rfl

theorem hush_mapLines (intake : Intake) : (intake.mapLines f).hush = intake.hush.mapLines f := by
  cases intake <;> rfl

theorem isPrivate_mapLines (intake : Intake) : (intake.mapLines f).isPrivate = intake.isPrivate := by
  cases intake <;> rfl

theorem isAnnounced_mapLines (intake : Intake) :
    (intake.mapLines f).isAnnounced = intake.isAnnounced := by
  cases intake with
  | addressed queue =>
    obtain ⟨capacity, envelopes⟩ := queue
    cases envelopes <;> rfl
  | sweep sweeper offered => rfl

theorem offer_mapLines (intake : Intake) (id : ClientId) :
    (intake.mapLines f).offer id = (intake.offer id).mapLines f := by
  cases intake with
  | addressed queue => rfl
  | sweep sweeper offered =>
    simp only [offer, mapLines, mapFeeds_insert]
    rfl

theorem withdraw_mapLines (intake : Intake) (id : ClientId) :
    (intake.mapLines f).withdraw id = (intake.withdraw id).mapLines f := by
  cases intake with
  | addressed queue => rfl
  | sweep sweeper offered => simp only [withdraw, mapLines, mapFeeds_erase]

theorem attach_mapLines (intake : Intake) (id : ClientId) :
    (intake.mapLines f).attach id = (intake.attach id).mapLines f := by
  cases intake with
  | addressed queue => rfl
  | sweep sweeper offered =>
    rw [mapLines, attach, attach, getElem?_mapFeeds]
    cases offered[id]? with
    | none => rfl
    | some feed =>
      dsimp only [Option.map_some, mapLines]
      rw [Sweeper.mapLines_attach, mapFeeds_erase]

theorem detach_mapLines (intake : Intake) (id : ClientId) :
    (intake.mapLines f).detach id = (intake.detach id).mapLines f := by
  cases intake with
  | addressed queue => rfl
  | sweep sweeper offered => simp only [detach, mapLines, Sweeper.mapLines_detach]

theorem begin?_mapLines (intake : Intake) (path : List ClientId) :
    (intake.mapLines f).begin? path = (intake.begin? path).map (Round.mapLines f) := by
  cases intake with
  | addressed queue => rfl
  | sweep sweeper offered =>
    rw [mapLines, begin?, begin?, Sweeper.mapLines, keys_mapFeeds]
    split <;> rfl

theorem gather_mapLines (intake : Intake) (round : Round) :
    (intake.mapLines f).gather (round.mapLines f) =
      (intake.gather round).map fun after => (after.1.mapLines f, after.2.mapLines f) := by
  cases intake with
  | addressed queue =>
    cases round with
    | feeds tour => rfl
    | queue taken =>
      obtain ⟨capacity, envelopes⟩ := queue
      cases envelopes with
      | nil => rfl
      | cons envelope envelopes =>
        simp only [mapLines, Round.mapLines, SharedQueue.mapLines, List.map_cons, gather,
          Option.map_some, List.map_append, List.map_nil]
  | sweep sweeper offered =>
    cases round with
    | queue taken => rfl
    | feeds tour =>
      rw [mapLines, Round.mapLines, gather, gather, Sweeper.proceed_mapLines, Option.map_map,
        Option.map_map]
      rfl

theorem conclude_mapLines (intake : Intake) (round : Round) :
    (intake.mapLines f).conclude (round.mapLines f) = (intake.conclude round).mapLines f := by
  cases intake with
  | addressed queue => cases round <;> rfl
  | sweep sweeper offered =>
    cases round with
    | queue taken => rfl
    | feeds tour => simp only [conclude, mapLines, Round.mapLines, Sweeper.conclude_mapLines]

end Intake

end ChatRooms
