import ChatRooms.Proofs.Exchange.Soundness
import ChatRooms.Proofs.Intake.Passage

namespace ChatRooms

open Std

def Event.reportOf? (id : ClientId) : Event → Option Report
  | line other text => if other = id then some (.line text) else none
  | closed other | exited other => if other = id then some .closed else none
  | register _ _ | shutdown => none

def Activity.reportsOf (id : ClientId) : Activity → List Report
  | handling events => events.filterMap (Event.reportOf? id)
  | gathering round _ => reportsIn id round.batch

def Happening.forwarded? (id : ClientId) : Happening → Option String
  | forwarded other line => if other = id then some line else none
  | handled _ _ | taken _ _ => none

def Happening.handled? (id : ClientId) : Happening → Option String
  | handled _ (.line other line) => if other = id then some line else none
  | handled _ _ | forwarded _ _ | taken _ _ => none

def forwardedLines (id : ClientId) (trace : List Happening) : List String :=
  trace.filterMap (Happening.forwarded? id)

def handledLines (id : ClientId) (trace : List Happening) : List String :=
  trace.filterMap (Happening.handled? id)

section Traces

variable {id other : ClientId} {trace more : List Happening} {line : String} {hub : Hub}
  {event : Event}

@[simp] theorem forwardedLines_append :
    forwardedLines id (trace ++ more) = forwardedLines id trace ++ forwardedLines id more :=
  List.filterMap_append

@[simp] theorem handledLines_append :
    handledLines id (trace ++ more) = handledLines id trace ++ handledLines id more :=
  List.filterMap_append

@[simp] theorem handledLines_forwarded : handledLines id [.forwarded other line] = [] := rfl

theorem handledLines_handled (event : Event) :
    handledLines id [.handled hub event] = textsOf (event.reportOf? id).toList := by
  cases event with
  | line other text =>
    by_cases hid : other = id <;>
      simp [handledLines, Happening.handled?, Event.reportOf?, textsOf, Report.text?, hid]
  | closed other | exited other =>
    by_cases hid : other = id <;> simp [handledLines, Happening.handled?, Event.reportOf?, hid]
  | register | shutdown => rfl

theorem filterMap_event (id : ClientId) (envelopes : List Envelope) :
    (envelopes.map Envelope.event).filterMap (Event.reportOf? id) = reportsIn id envelopes := by
  rw [reportsIn, List.filterMap_map]
  apply List.filterMap_congr
  rintro ⟨other, report⟩ -
  cases report <;> rfl

end Traces

namespace Exchange

variable {exchange exchange' exchange'' : Exchange} {id other : ClientId} {event : Event} {order : Order}
  {settings : Settings}

/-- Nothing changes for a client but that it may be refused, unless it `goes`. -/
structure Spares (id : ClientId) (goes : Prop) (exchange exchange' : Exchange) : Prop where
  known : exchange'.registrations[id]? = none → exchange.registrations[id]? = none
  accepted : exchange'.registrations[id]? = some .accepted ↔
    exchange.registrations[id]? = some .accepted
  occupants : id ∈ exchange.hub.directory.occupants →
    id ∈ exchange'.hub.directory.occupants ∨ goes
  orders : .exited id ∈ exchange'.orders → .exited id ∈ exchange.orders
  holding : ∃ reports offered?,
    (reports = (exchange.intake.holding id).reports ∨ goes ∧ reports = []) ∧
    (offered? = (exchange.intake.holding id).offered? ∨ offered? = none) ∧
    exchange'.intake.holding id = { exchange.intake.holding id with reports, offered? }

namespace Spares

variable {goes : Prop}

theorem of_same (hregistrations : exchange'.registrations = exchange.registrations)
    (hhub : exchange'.hub = exchange.hub)
    (horders : .exited id ∈ exchange'.orders → .exited id ∈ exchange.orders)
    (hholding : exchange'.intake.holding id = exchange.intake.holding id) :
    Spares id goes exchange exchange' where
  known h := by rw [← hregistrations]; exact h
  accepted := by rw [hregistrations]
  occupants h := Or.inl (by rw [hhub]; exact h)
  orders := horders
  holding := ⟨_, _, Or.inl rfl, Or.inl rfl, hholding⟩

theorem imp {goes' : Prop} (h : Spares id goes exchange exchange') (hgoes : goes → goes') :
    Spares id goes' exchange exchange' where
  known := h.known
  accepted := h.accepted
  occupants hid := (h.occupants hid).imp_right hgoes
  orders := h.orders
  holding := by
    obtain ⟨reports, offered?, hreports, hrest⟩ := h.holding
    exact ⟨reports, offered?, hreports.imp_right (And.imp_left hgoes), hrest⟩

theorem trans (h : Spares id goes exchange exchange') (h' : Spares id goes exchange' exchange'') :
    Spares id goes exchange exchange'' where
  known hnone := h.known (h'.known hnone)
  accepted := h'.accepted.trans h.accepted
  occupants hid := (h.occupants hid).elim h'.occupants Or.inr
  orders hmem := h.orders (h'.orders hmem)
  holding := by
    obtain ⟨reports, offered?, hreports, hoffered, heq⟩ := h.holding
    obtain ⟨reports', offered?', hreports', hoffered', heq'⟩ := h'.holding
    rw [heq] at heq' hoffered' hreports'
    refine ⟨reports', offered?', ?_, ?_, heq'⟩
    · rcases hreports' with rfl | hgone
      · exact hreports
      · exact Or.inr hgone
    · rcases hoffered' with rfl | rfl
      · exact hoffered
      · exact Or.inr rfl

theorem halt (exchange : Exchange) (phase : Phase) :
    Spares id goes exchange (exchange.halt phase) where
  known h := by
    rw [getElem?_registrations_halt, Option.map_eq_none_iff] at h
    exact h
  accepted := registrations_halt_eq_accepted
  occupants := Or.inl
  orders h := absurd h List.not_mem_nil
  holding := ⟨_, _, Or.inl rfl, Or.inl rfl, rfl⟩

theorem connect (hne : other ≠ id) (outbox : Outbox) :
    Spares id goes exchange (exchange.connect other outbox) where
  known h := by
    rw [Exchange.connect, Maps.getElem?_insert_of_ne hne] at h
    exact h
  accepted := by rw [Exchange.connect, Maps.getElem?_insert_of_ne hne]
  occupants := Or.inl
  orders h := h
  holding := ⟨_, _, Or.inl rfl, Or.inl rfl, Intake.holding_offer_of_ne hne⟩

theorem refuse (hpending : exchange.registrations[other]? = some .pending) :
    Spares id goes exchange (exchange.refuse other) := by
  have hregistrations : (exchange.refuse other).registrations[id]? =
      if other = id then some .refused else exchange.registrations[id]? := by
    show (exchange.registrations.insert other .refused)[id]? = _
    rw [ExtTreeMap.getElem?_insert]
    simp only [Std.compare_eq_iff_eq]
  by_cases hid : other = id
  · subst hid
    rw [if_pos rfl] at hregistrations
    exact {
      known := fun h => by rw [hregistrations] at h; cases h
      accepted := by simp [hregistrations, hpending]
      occupants := Or.inl
      orders := fun h => h
      holding := ⟨_, none, Or.inl rfl, Or.inr rfl, Intake.holding_withdraw⟩ }
  · rw [if_neg hid] at hregistrations
    exact {
      known := fun h => by rw [hregistrations] at h; exact h
      accepted := by rw [hregistrations]
      occupants := Or.inl
      orders := fun h => h
      holding := ⟨_, _, Or.inl rfl, Or.inl rfl, Intake.holding_withdraw_of_ne hid⟩ }

theorem handle (hintact : exchange.hub.directory.Intact)
    (hevent : ∀ peer, event ≠ .register id peer) :
    Spares id (event = .closed id ∨ event = .exited id) exchange (exchange.handle [event]) := by
  rcases handle_eq exchange event with ⟨hub, effects, outboxes, hhandle, heq⟩ | ⟨defect, -, heq⟩
  · have hstep := Hub.steps_of_handle hhandle
    rw [heq]
    refine ⟨fun h => h, Iff.rfl, fun hid => ?_, fun h => h, ?_⟩
    · show id ∈ hub.directory.occupants ∨ _
      rw [hstep.mem_occupants_iff hintact]
      tauto
    · show ∃ reports offered?, _ ∧ _ ∧ (effects.foldl Intake.absorb exchange.intake).holding id = _
      rw [hstep.foldl_absorb]
      obtain ⟨reports, hreports, hholding⟩ := Intake.holding_follow hevent
      exact ⟨reports, _, hreports, Or.inl rfl, hholding⟩
  · rw [heq]
    exact .halt exchange _

theorem beginClosing (hintact : exchange.hub.directory.Intact) :
    Spares id goes exchange exchange.beginClosing :=
  ((handle hintact (by simp)).imp (by simp)).trans (.of_same rfl rfl (fun h => h) rfl)

theorem register (hintact : exchange.hub.directory.Intact)
    (hpending : exchange.registrations[other]? = some .pending) (hne : other ≠ id)
    (peer : Option SocketAddress) :
    Spares id goes exchange (exchange.takeOrder (.register other peer)) := by
  by_cases hphase : exchange.phase = .running
  · rw [takeOrder_register hphase]
    dsimp only
    have hhandle : Spares id goes exchange (exchange.handle [.register other peer]) :=
      (handle hintact fun peer' heq => hne (Event.register.inj heq).1).imp (by simp)
    split
    next =>
      refine hhandle.trans ⟨?_, ?_, Or.inl, fun h => h, _, _, Or.inl rfl, Or.inl rfl, rfl⟩
      · show ((exchange.handle _).registrations.insert other .accepted)[id]? = none → _
        rw [Maps.getElem?_insert_of_ne hne]
        exact fun h => h
      · show ((exchange.handle _).registrations.insert other .accepted)[id]? = some .accepted ↔ _
        rw [Maps.getElem?_insert_of_ne hne]
    next => exact hhandle
  · rw [takeOrder_register_of_ne hphase]
    exact .refuse hpending

end Spares

end Exchange

namespace Floor

variable {settings : Settings} {id other : ClientId} {trace happenings : List Happening}
  {floor floor' : Floor}

/-- The reports of a client on their way to the hub, in the order in which it will handle them. -/
def reportsOf (floor : Floor) (id : ClientId) : List Report :=
  floor.activity.reportsOf id ++ (floor.exchange.intake.holding id).reports

/-- What is behind the passage of one client's lines: its ending, however the hub learns of it, comes
after its last line. -/
structure Kept (id : ClientId) (trace : List Happening) (floor : Floor) : Prop where
  known : id ∈ floor.holders → floor.exchange.registrations[id]? ≠ none
  orders : .exited id ∈ floor.exchange.orders → floor.Finished id
  closed : .closed ∈ floor.reportsOf id → floor.Finished id
  orderly : Orderly (floor.reportsOf id)
  offered {feed : Feed} : (floor.exchange.intake.holding id).offered? = some feed →
    feed.lines = [] ∧ floor.exchange.registrations[id]? ≠ some .accepted ∧
      (feed.hasEnded = true → floor.Finished id)
  leaver {round : Round} : floor.activity = .gathering round (some id) →
    floor.Finished id ∧ round.Empties id (floor.exchange.intake.holding id)
  silent : floor.exchange.registrations[id]? ≠ some .accepted → forwardedLines id trace = []
  removed : floor.exchange.registrations[id]? = some .accepted →
    id ∉ floor.exchange.hub.directory.occupants → floor.Finished id ∧ Endings (floor.reportsOf id)
  conserved : forwardedLines id trace = handledLines id trace ++ textsOf (floor.reportsOf id)

namespace Kept

/-- What passes a client by, except that a report of its may be handled. It goes with its ending. -/
theorem of_spares {goes : Prop} (h : Kept id trace floor)
    (hspares : floor.exchange.Spares id goes floor'.exchange)
    (hgoes : goes → .closed ∈ floor.reportsOf id ∧ Endings (floor.reportsOf id))
    (hholders : id ∈ floor'.holders → id ∈ floor.holders)
    (hreports : ∃ handled, floor.activity.reportsOf id = handled ++ floor'.activity.reportsOf id ∧
      handledLines id happenings = textsOf handled)
    (hleaver : ∀ round, floor'.activity = .gathering round (some id) →
      floor.activity = .gathering round (some id))
    (hforwarded : forwardedLines id happenings = []) :
    Kept id (trace ++ happenings) floor' := by
  obtain ⟨hknown, haccepted, hoccupants, horders, reports, offered?, hkept, hoffered, hholding⟩ :=
    hspares
  obtain ⟨handled, hactivity, hhandled⟩ := hreports
  have hfinished (hfloor : floor.Finished id) : floor'.Finished id :=
    ⟨mt hknown hfloor.1, mt hholders hfloor.2⟩
  have hbefore : floor.reportsOf id = handled ++
      (floor'.activity.reportsOf id ++ (floor.exchange.intake.holding id).reports) := by
    rw [reportsOf, hactivity, List.append_assoc]
  have hafter : floor'.reportsOf id = floor'.activity.reportsOf id ++ reports := by
    rw [reportsOf, hholding]
  have hsublist : (floor'.reportsOf id).Sublist (floor.reportsOf id) := by
    have hrest : reports.Sublist (floor.exchange.intake.holding id).reports := by
      rcases hkept with rfl | ⟨-, rfl⟩
      · exact .refl _
      · exact List.nil_sublist _
    rw [hafter, hbefore]
    exact (hrest.append_left _).trans (List.sublist_append_right _ _)
  have htexts : textsOf (floor.reportsOf id) = textsOf handled ++ textsOf (floor'.reportsOf id) := by
    rcases hkept with rfl | ⟨hgone, rfl⟩
    · rw [hbefore, hafter, textsOf_append]
    · -- All that goes with the client is its ending.
      have hnothing := (hgoes hgone).2.textsOf_eq_nil
      rw [hbefore, textsOf_append, textsOf_append] at hnothing
      have hrest := (List.append_eq_nil_iff.1 (List.append_eq_nil_iff.1 hnothing).2).2
      rw [hbefore, hafter, textsOf_append, textsOf_append, textsOf_append, hrest, textsOf_nil]
  refine ⟨fun hid => mt hknown (h.known (hholders hid)), fun hmem => hfinished (h.orders (horders hmem)),
    fun hmem => hfinished (h.closed (hsublist.subset hmem)), h.orderly.sublist hsublist,
    fun {feed} hfeed => ?_, fun {round} hround => ?_, fun hnot => ?_, fun hregistration hid => ?_, ?_⟩
  · rw [hholding] at hfeed
    rcases hoffered with rfl | rfl
    · obtain ⟨hlines, hnot, hended⟩ := h.offered hfeed
      exact ⟨hlines, mt haccepted.1 hnot, fun hfeed => hfinished (hended hfeed)⟩
    · cases hfeed
  · obtain ⟨hfloor, hmode, hempties⟩ := h.leaver (hleaver round hround)
    rw [hholding]
    refine ⟨hfinished hfloor, hmode, hempties.imp_right fun hendings => ?_⟩
    rcases hkept with rfl | ⟨-, rfl⟩
    · exact hendings
    · exact fun report hmem => absurd hmem List.not_mem_nil
  · rw [forwardedLines_append, h.silent (mt haccepted.2 hnot), hforwarded, List.append_nil]
  · have hbefore : floor.Finished id ∧ Endings (floor.reportsOf id) := by
      by_cases hgone : goes
      · obtain ⟨hclosed, hendings⟩ := hgoes hgone
        exact ⟨h.closed hclosed, hendings⟩
      · refine h.removed (haccepted.1 hregistration) fun hmem => ?_
        exact (hoccupants hmem).elim hid hgone
    exact ⟨hfinished hbefore.1, fun report hmem => hbefore.2 report (hsublist.subset hmem)⟩
  · rw [forwardedLines_append, hforwarded, List.append_nil, h.conserved, htexts, handledLines_append,
      hhandled, List.append_assoc]

theorem connect (h : Kept id trace floor) (hnew : floor.exchange.registrations[id]? = none)
    (outbox : Outbox) : Kept id trace { floor with
      exchange := floor.exchange.connect id outbox, holders := floor.holders.insert id } := by
  let after : Floor := { floor with
    exchange := floor.exchange.connect id outbox, holders := floor.holders.insert id }
  -- Nobody has heard of it before.
  have hunknown (hfloor : floor.Finished id) : False := hfloor.1 hnew
  have hpending : after.exchange.registrations[id]? = some .pending :=
    ExtTreeMap.getElem?_insert_self
  obtain ⟨offered?, hempty, hholding⟩ := @Intake.holding_offer floor.exchange.intake id
  have hsame : after.reportsOf id = floor.reportsOf id := by
    show _ ++ ((floor.exchange.intake.offer id).holding id).reports = _
    rw [hholding]
    rfl
  refine ⟨fun _ hnone => ?_, fun hmem => (hunknown (h.orders hmem)).elim, fun hmem => ?_,
    hsame ▸ h.orderly, fun {feed} hfeed => ?_, fun hactivity => (hunknown (h.leaver hactivity).1).elim,
    fun _ => h.silent (by simp [hnew]), fun hregistration => ?_, hsame ▸ h.conserved⟩
  · rw [hpending] at hnone
    cases hnone
  · rw [hsame] at hmem
    exact (hunknown (h.closed hmem)).elim
  · change ((floor.exchange.intake.offer id).holding id).offered? = some feed at hfeed
    rw [hholding] at hfeed
    obtain rfl := hempty feed hfeed
    refine ⟨rfl, fun haccepted => ?_, fun hended => by cases hended⟩
    rw [hpending] at haccepted
    cases haccepted
  · rw [hpending] at hregistration
    cases hregistration

theorem post {order : Order} {exchange : Exchange} (h : Kept id trace floor)
    (hgives : floor.Gives order) (hpost : floor.exchange.post order = .accepted exchange) :
    Kept id trace { floor with exchange } := by
  obtain rfl := Exchange.eq_of_post hpost
  refine ⟨h.known, fun hmem => ?_, h.closed, h.orderly, h.offered, h.leaver, h.silent, h.removed,
    h.conserved⟩
  rcases List.mem_append.1 hmem with hmem | hmem
  · exact h.orders hmem
  · obtain rfl := List.mem_singleton.1 hmem
    exact hgives

theorem not_finished (hholds : id ∈ floor.holders) : ¬floor.Finished id :=
  fun hfloor => hfloor.2 hholds

theorem write {line : String} {intake : Intake} {ringers : List ClientId} (h : Kept id trace floor)
    (hholds : id ∈ floor.holders) (haccepted : floor.exchange.registrations[id]? = some .accepted)
    (hwrite : floor.exchange.intake.write id line = .accepted intake) :
    Kept id (trace ++ [.forwarded id line]) { floor with
      exchange := { floor.exchange with intake }, ringers } := by
  let after : Floor := { floor with exchange := { floor.exchange with intake }, ringers }
  have hbusy := not_finished hholds
  have hopen : .closed ∉ floor.reportsOf id := mt h.closed hbusy
  have hoffered : (floor.exchange.intake.holding id).offered? = none :=
    Option.eq_none_iff_forall_ne_some.2 fun feed hfeed => (h.offered hfeed).2.1 haccepted
  have hholding := Intake.holding_write hwrite hoffered
    fun hclosed => hopen (List.mem_append_right _ hclosed)
  have hreports : after.reportsOf id = floor.reportsOf id ++ [.line line] := by
    show _ ++ (intake.holding id).reports = _
    rw [hholding, reportsOf, List.append_assoc]
  refine ⟨h.known, h.orders, fun hmem => ?_, hreports ▸ h.orderly.append_line hopen,
    fun {feed} hfeed => ?_, fun hactivity => absurd (h.leaver hactivity).1 hbusy,
    fun hnot => absurd haccepted hnot,
    fun hregistration hid => absurd (h.removed hregistration hid).1 hbusy, ?_⟩
  · rw [hreports] at hmem
    rcases List.mem_append.1 hmem with hclosed | hclosed
    · exact absurd hclosed hopen
    · cases List.mem_singleton.1 hclosed
  · change (intake.holding id).offered? = some feed at hfeed
    rw [hholding] at hfeed
    exact h.offered hfeed
  · have hnew : forwardedLines id [.forwarded id line] = [line] := by
      simp [forwardedLines, Happening.forwarded?]
    rw [hreports, forwardedLines_append, hnew, h.conserved]
    simp

theorem letGo {intake : Intake} {ringers : List ClientId} (h : Kept id trace floor)
    (hholds : id ∈ floor.holders) (hletGo : floor.exchange.intake.letGo id = .accepted intake) :
    Kept id trace { floor with
      exchange := { floor.exchange with intake }, holders := floor.holders.erase id, ringers } := by
  let after : Floor := { floor with
    exchange := { floor.exchange with intake }, holders := floor.holders.erase id, ringers }
  have hbusy := not_finished hholds
  have hopen : .closed ∉ floor.reportsOf id := mt h.closed hbusy
  have hfinished : after.Finished id :=
    ⟨h.known hholds, fun hmem => (ExtTreeSet.mem_erase.1 hmem).1 (Std.compare_eq_iff_eq.2 rfl)⟩
  obtain ⟨reports, hreports, hholding⟩ := Intake.holding_letGo hletGo
    fun hclosed => hopen (List.mem_append_right _ hclosed)
  obtain ⟨endings, hendings, hafter⟩ : ∃ endings, Endings endings ∧
      after.reportsOf id = floor.reportsOf id ++ endings := by
    have hsplit : after.reportsOf id = floor.activity.reportsOf id ++ reports := by
      show _ ++ (intake.holding id).reports = _
      rw [hholding]
    rcases hreports with rfl | rfl
    · exact ⟨[], by simp [Endings], by rw [hsplit, reportsOf, List.append_nil]⟩
    · exact ⟨[.closed], by simp [Endings], by rw [hsplit, reportsOf, List.append_assoc]⟩
  refine ⟨fun hmem => h.known (ExtTreeSet.mem_of_mem_erase hmem), fun _ => hfinished, fun _ => hfinished,
    hafter ▸ h.orderly.append_endings hendings, fun {feed} hfeed => ?_,
    fun hactivity => absurd (h.leaver hactivity).1 hbusy, h.silent,
    fun hregistration hid => absurd (h.removed hregistration hid).1 hbusy, ?_⟩
  · change (intake.holding id).offered? = some feed at hfeed
    rw [hholding] at hfeed
    obtain ⟨found, hfound, rfl⟩ := Option.map_eq_some_iff.1 hfeed
    obtain ⟨hlines, hnot, -⟩ := h.offered hfound
    exact ⟨hlines, hnot, fun _ => hfinished⟩
  · rw [hafter, textsOf_append, hendings.textsOf_eq_nil, List.append_nil]
    exact h.conserved

theorem accept {exchange : Exchange} (h : Kept id trace floor) (hfree : floor.activity = .handling [])
    (hpending : floor.exchange.registrations[id]? = some .pending)
    (haccepted : exchange.registrations[id]? = some .accepted)
    (hid : id ∈ exchange.hub.directory.occupants)
    (horders : .exited id ∈ exchange.orders → .exited id ∈ floor.exchange.orders)
    (hholding : exchange.intake.holding id = (floor.exchange.intake.attach id).holding id) :
    Kept id trace { floor with exchange } := by
  let after : Floor := { floor with exchange }
  have hsilent := h.silent (by simp [hpending])
  have hnothing := h.conserved
  rw [hsilent] at hnothing
  obtain ⟨hhandled, htexts⟩ := List.append_eq_nil_iff.1 hnothing.symm
  have hfinished (hfloor : floor.Finished id) : after.Finished id := by
    refine ⟨?_, hfloor.2⟩
    show exchange.registrations[id]? ≠ none
    rw [haccepted]
    exact Option.some_ne_none _
  -- The feed on offer, if there is one, holds an ending at most.
  obtain ⟨hendings, hclosed, hnone⟩ : Endings (after.reportsOf id) ∧
      (.closed ∈ after.reportsOf id → floor.Finished id) ∧
      (exchange.intake.holding id).offered? = none := by
    have hbefore : floor.reportsOf id = (floor.exchange.intake.holding id).reports := by
      rw [reportsOf, hfree]
      rfl
    have hafter : after.reportsOf id = (exchange.intake.holding id).reports := by
      show floor.activity.reportsOf id ++ _ = _
      rw [hfree]
      rfl
    rw [hafter, hholding, Intake.holding_attach]
    cases hoffered : (floor.exchange.intake.holding id).offered? with
    | none =>
      dsimp only
      rw [← hbefore]
      exact ⟨endings_iff_textsOf.2 htexts, h.closed, hoffered⟩
    | some feed =>
      obtain ⟨hlines, -, hended⟩ := h.offered hoffered
      exact ⟨Feed.endings_reports hlines, fun hmem => hended (Feed.hasEnded_of_closed hmem), rfl⟩
  refine ⟨fun hmem => ?_, fun hmem => hfinished (h.orders (horders hmem)),
    fun hmem => hfinished (hclosed hmem), hendings.orderly, fun {feed} hfeed => ?_, fun hactivity => ?_,
    fun _ => hsilent, fun _ hgone => absurd hid hgone, ?_⟩
  · show exchange.registrations[id]? ≠ none
    rw [haccepted]
    exact Option.some_ne_none _
  · cases hnone.symm.trans hfeed
  · cases hfree.symm.trans hactivity
  · rw [hsilent, hhandled, hendings.textsOf_eq_nil, List.append_nil]

theorem leave {orders : List Order} {round : Round} (h : Kept id trace floor)
    (hfree : floor.activity = .handling []) (horders : floor.exchange.orders = .exited id :: orders)
    (hbegins : floor.exchange.intake.Begins round) :
    Kept id trace { floor with
      exchange := { floor.exchange with orders }, activity := .gathering round (some id) } := by
  have hfinished : floor.Finished id := h.orders (by rw [horders]; exact List.mem_cons_self)
  have hsame : reportsOf { floor with
      exchange := { floor.exchange with orders }, activity := .gathering round (some id) } id =
        floor.reportsOf id := by
    show reportsIn id round.batch ++ _ = _
    rw [Intake.reportsIn_of_begins hbegins, reportsOf, hfree]
    rfl
  refine ⟨h.known, fun _ => hfinished, fun _ => hfinished, hsame ▸ h.orderly, h.offered,
    fun {found} hactivity => ?_, h.silent, hsame ▸ h.removed, hsame ▸ h.conserved⟩
  obtain rfl := (Activity.gathering.inj hactivity).1
  exact ⟨hfinished, Intake.empties_of_begins hbegins id⟩

/-- It does not matter to a client how its reports are spread over the batch and the intake. -/
theorem of_texts {activity : Activity} {intake : Intake} (h : Kept id trace floor)
    (hfloor : floor' = { floor with exchange := { floor.exchange with intake }, activity })
    (hoffered : (intake.holding id).offered? = (floor.exchange.intake.holding id).offered?)
    (htexts : textsOf (floor'.reportsOf id) = textsOf (floor.reportsOf id))
    (horderly : Orderly (floor'.reportsOf id))
    (hclosed : .closed ∈ floor'.reportsOf id → floor.Finished id)
    (hleaver : ∀ round, activity = .gathering round (some id) →
      floor.Finished id ∧ round.Empties id (intake.holding id)) : Kept id trace floor' := by
  subst hfloor
  refine ⟨h.known, h.orders, hclosed, horderly, fun {feed} hfeed => h.offered (hoffered ▸ hfeed),
    fun {round} hactivity => hleaver round hactivity, h.silent, fun hregistration hid => ?_,
    htexts ▸ h.conserved⟩
  obtain ⟨hfinished, hendings⟩ := h.removed hregistration hid
  rw [endings_iff_textsOf, ← htexts, ← endings_iff_textsOf] at hendings
  exact ⟨hfinished, hendings⟩

theorem gather {round round' : Round} {leaver : Option ClientId} {intake : Intake}
    (h : Kept id trace floor) (hactivity : floor.activity = .gathering round leaver)
    (hgather : floor.exchange.intake.gather round = some (intake, round')) :
    Kept id trace { floor with
      exchange := { floor.exchange with intake }, activity := .gathering round' leaver } := by
  obtain ⟨hoffered, hkeeps⟩ := @Intake.keeps_gather _ _ id _ _ hgather
  have hbefore : floor.reportsOf id =
      reportsIn id round.batch ++ (floor.exchange.intake.holding id).reports := by
    rw [reportsOf, hactivity]
    rfl
  refine h.of_texts rfl hoffered (hbefore ▸ hkeeps.texts) (hkeeps.orderly (hbefore ▸ h.orderly))
    (fun hmem => h.closed (hbefore ▸ hkeeps.closed hmem)) fun found hfound => ?_
  obtain ⟨rfl, rfl⟩ := Activity.gathering.inj hfound
  exact (h.leaver hactivity).imp_right fun hempties => Intake.empties_gather hempties hgather

/-- Whoever is about to leave has nothing left in the intake, so its exit comes last. -/
theorem conclude {round : Round} {leaver : Option ClientId} (h : Kept id trace floor)
    (hactivity : floor.activity = .gathering round leaver)
    (hend : floor.exchange.intake.gather round = none) :
    Kept id trace { floor with
      exchange := { floor.exchange with intake := floor.exchange.intake.conclude round }
      activity := .handling (round.batch.map Envelope.event ++ leaver.toList.map Event.exited) } := by
  have hbefore : floor.reportsOf id =
      reportsIn id round.batch ++ (floor.exchange.intake.holding id).reports := by
    rw [reportsOf, hactivity]
    rfl
  obtain ⟨reports, hreports, hholding⟩ := @Intake.holding_conclude floor.exchange.intake round id
  have horderly := h.orderly
  rw [hbefore] at horderly
  have hkeeps := Keeps.drop_rest horderly hreports
  have hafter : reportsOf { floor with
      exchange := { floor.exchange with intake := floor.exchange.intake.conclude round }
      activity := .handling (round.batch.map Envelope.event ++ leaver.toList.map Event.exited) } id =
      reportsIn id round.batch ++ (if leaver = some id then [.closed] else []) ++ reports := by
    show (round.batch.map Envelope.event ++ leaver.toList.map Event.exited).filterMap _ ++
      ((floor.exchange.intake.conclude round).holding id).reports = _
    rw [List.filterMap_append, filterMap_event, hholding]
    cases leaver with
    | none => rfl
    | some other => by_cases heq : other = id <;> simp [Event.reportOf?, heq]
  have hoffered : ((floor.exchange.intake.conclude round).holding id).offered? =
      (floor.exchange.intake.holding id).offered? := by
    rw [hholding]
  by_cases hleaver : leaver = some id
  · subst hleaver
    obtain ⟨hfinished, hempties⟩ := h.leaver hactivity
    have hendings : Endings ([.closed] ++ reports) := by
      have hrest := Intake.endings_of_empties hempties hend
      rcases hreports with rfl | ⟨-, rfl⟩
      · simpa [Endings] using hrest
      · simp [Endings]
    rw [if_pos rfl, List.append_assoc] at hafter
    refine h.of_texts rfl hoffered ?_ ?_ (fun _ => hfinished) fun found hfound => by cases hfound
    · rw [hafter, hbefore, ← hkeeps.texts]
      simp
    · rw [hafter]
      exact (horderly.sublist (List.sublist_append_left _ _)).append_endings hendings
  · rw [if_neg hleaver, List.append_nil] at hafter
    exact h.of_texts rfl hoffered (by rw [hafter, hbefore]; exact hkeeps.texts)
      (by rw [hafter]; exact hkeeps.orderly horderly)
      (fun hmem => h.closed (by rw [hbefore]; exact hkeeps.closed (hafter ▸ hmem)))
      fun found hfound => by cases hfound

theorem reportsOf_handling {event : Event} {events : List Event} :
    Activity.reportsOf id (.handling (event :: events)) =
      (event.reportOf? id).toList ++ Activity.reportsOf id (.handling events) := by
  rw [Activity.reportsOf, Activity.reportsOf, List.filterMap_cons]
  cases event.reportOf? id <;> rfl

/-- What comes after an ending are endings, so a client that goes has nothing on the way. -/
theorem handle {event : Event} {events : List Event} (h : Kept id trace floor)
    (hintact : floor.exchange.hub.directory.Intact)
    (hactivity : floor.activity = .handling (event :: events))
    (hevent : ∀ peer, event ≠ .register id peer) :
    Kept id (trace ++ [.handled floor.exchange.hub event]) { floor with
      exchange := floor.exchange.handle [event], activity := .handling events } := by
  refine h.of_spares (.handle hintact hevent) (fun hgoes => ?_) (fun hid => hid)
    ⟨_, by rw [hactivity]; exact reportsOf_handling, ?_⟩ (fun round hround => by cases hround) rfl
  · have hreport : event.reportOf? id = some .closed := by
      rcases hgoes with rfl | rfl <;> simp [Event.reportOf?]
    have hbefore : floor.reportsOf id = .closed :: (Activity.reportsOf id (.handling events) ++
        (floor.exchange.intake.holding id).reports) := by
      rw [reportsOf, hactivity, reportsOf_handling, hreport]
      rfl
    have horderly := h.orderly
    rw [hbefore] at horderly
    rw [hbefore]
    refine ⟨List.mem_cons_self, fun report hmem => ?_⟩
    exact (List.mem_cons.1 hmem).elim (fun heq => heq) (horderly.endings_of_cons report)
  · exact handledLines_handled event

theorem of_bystanding (h : Kept id trace floor)
    (hspares : floor.exchange.Spares id False floor'.exchange)
    (hactivity : floor'.activity = floor.activity)
    (hholders : id ∈ floor'.holders → id ∈ floor.holders)
    (hforwarded : forwardedLines id happenings = []) (hhandled : handledLines id happenings = []) :
    Kept id (trace ++ happenings) floor' :=
  h.of_spares hspares False.elim hholders ⟨[], by rw [hactivity]; rfl, hhandled⟩
    (fun _ hround => hactivity ▸ hround) hforwarded

theorem order {order : Order} {orders : List Order} (h : Kept id trace floor)
    (hsound : floor.exchange.Sound settings) (hfree : floor.activity = .handling [])
    (horders : floor.exchange.orders = order :: orders) (hstays : ∀ id, order ≠ .exited id) :
    Kept id (trace ++ floor.exchange.announced order) { floor with
      exchange := { floor.exchange with orders }.takeOrder order } := by
  have hforwarded : forwardedLines id (floor.exchange.announced order) = [] := by
    unfold Exchange.announced
    split <;> rfl
  have hhandled : handledLines id (floor.exchange.announced order) = [] := by
    unfold Exchange.announced
    split <;> rfl
  let rest : Exchange := { floor.exchange with orders }
  have hmem : .exited id ∈ orders → .exited id ∈ floor.exchange.orders := by
    rw [horders]
    exact List.mem_cons_of_mem _
  have hdropped : floor.exchange.Spares id False rest := .of_same rfl rfl hmem rfl
  have hbystanding {exchange : Exchange} (hspares : rest.Spares id False exchange) :
      Kept id (trace ++ floor.exchange.announced order) { floor with exchange } :=
    h.of_bystanding (hdropped.trans hspares) rfl (fun hid => hid) hforwarded hhandled
  have hintact : rest.hub.directory.Intact := hsound.reachable.intact
  cases order with
  | register other peer =>
    have hpending : rest.registrations[other]? = some .pending :=
      hsound.pending (by rw [horders]; exact List.mem_cons_self)
    by_cases hid : other = id
    · subst hid
      by_cases hphase : rest.phase = .running
      · rcases Exchange.handle_eq rest (.register other peer) with
          ⟨hub, effects, outboxes, hhandle, heq⟩ | ⟨defect, -, heq⟩
        · have hstep := Hub.steps_of_handle hhandle
          have hopen : (rest.handle [.register other peer]).isOpen = true := by
            rw [heq, Exchange.isOpen]
            dsimp only
            rw [hphase]
          rw [Exchange.takeOrder_register hphase]
          dsimp only
          rw [if_pos hopen, heq]
          refine (h.accept hfree hpending ExtTreeMap.getElem?_insert_self ?_ hmem ?_).of_bystanding
            (.of_same rfl rfl (fun h => h) rfl) rfl (fun hid => hid) hforwarded hhandled
          · exact (hstep.mem_occupants_iff hintact).2 (Or.inl ⟨peer, rfl⟩)
          · show (effects.foldl Intake.absorb floor.exchange.intake).holding other = _
            rw [hstep.foldl_absorb]
            rfl
        · rw [Exchange.takeOrder_register hphase]
          dsimp only
          rw [heq, if_neg (by simp [Exchange.isOpen, Exchange.halt])]
          exact hbystanding (.halt rest _)
      · rw [Exchange.takeOrder_register_of_ne hphase]
        exact hbystanding (.refuse hpending)
    · exact hbystanding (.register hintact hpending hid peer)
  | exited other => exact absurd rfl (hstays other)
  | shutdown =>
    by_cases hphase : rest.phase = .running
    · rw [Exchange.takeOrder_shutdown hphase]
      exact hbystanding (.beginClosing hintact)
    · rw [Exchange.takeOrder_shutdown_of_ne hphase]
      exact hbystanding (.of_same rfl rfl (fun h => h) rfl)

end Kept

theorem Kept.step (h : Kept id trace floor) (hsound : Sound settings trace floor)
    (hstep : Step floor happenings floor') : Kept id (trace ++ happenings) floor' := by
  have hsilent {next : Floor} (hkept : Kept id trace next) : Kept id (trace ++ []) next := by
    rw [List.append_nil]
    exact hkept
  -- Steps about others, or about what no report passes through, spare the client.
  have same {exchange : Exchange} (hregistrations : exchange.registrations = floor.exchange.registrations)
      (hhub : exchange.hub = floor.exchange.hub) (horders : exchange.orders = floor.exchange.orders)
      (hholding : exchange.intake.holding id = floor.exchange.intake.holding id) :
      floor.exchange.Spares id False exchange :=
    .of_same hregistrations hhub (fun hmem => horders ▸ hmem) hholding
  cases hstep with
  | @connect other _ outbox hnew _ =>
    by_cases hid : other = id
    · subst hid
      exact hsilent (h.connect hnew outbox)
    · refine h.of_bystanding (.connect hid outbox) rfl (fun hmem => ?_) rfl rfl
      exact (ExtTreeSet.mem_insert.1 hmem).resolve_left (mt Std.compare_eq_iff_eq.1 hid)
  | post hgives hpost => exact hsilent (h.post hgives hpost)
  | giveUp hpending _ => exact h.of_bystanding (.refuse hpending) rfl (fun hmem => hmem) rfl rfl
  | @write other line _ hholds haccepted _ hwrite =>
    by_cases hid : other = id
    · subst hid
      exact h.write hholds haccepted hwrite
    · refine h.of_bystanding (same rfl rfl rfl (Intake.holding_write_of_ne hwrite hid)) rfl
        (fun hmem => hmem) ?_ rfl
      simp [forwardedLines, Happening.forwarded?, hid]
  | @letGo other _ hholds _ hletGo =>
    by_cases hid : other = id
    · subst hid
      exact hsilent (h.letGo hholds hletGo)
    · exact h.of_bystanding (same rfl rfl rfl (Intake.holding_letGo_of_ne hletGo hid)) rfl
        (fun hmem => ExtTreeSet.mem_of_mem_erase hmem) rfl rfl
  | vanish =>
    exact h.of_bystanding (same rfl rfl rfl rfl) rfl
      (fun hmem => ExtTreeSet.mem_of_mem_erase hmem) rfl rfl
  | ring =>
    exact h.of_bystanding (same rfl rfl rfl Intake.holding_ring) rfl (fun hmem => hmem) rfl rfl
  | take | stopReading | pass | dropHandles =>
    exact h.of_bystanding (same rfl rfl rfl rfl) rfl (fun hmem => hmem) rfl rfl
  | order hfree _ horders hstays => exact h.order hsound.exchange hfree horders hstays
  -- The round of `other` drains only the feed of `other`.
  | @leave other orders round hfree _ horders hbegins =>
    by_cases hid : other = id
    · subst hid
      exact hsilent (h.leave hfree horders hbegins)
    · have hspares : floor.exchange.Spares id False { floor.exchange with orders } :=
        .of_same rfl rfl (fun hmem => by rw [horders]; exact List.mem_cons_of_mem _ hmem) rfl
      refine h.of_spares hspares False.elim (fun hmem => hmem) ⟨[], ?_, rfl⟩
        (fun found hround => ?_) rfl
      · rw [hfree]
        exact (Intake.reportsIn_of_begins hbegins id).symm
      · exact absurd (Option.some.inj (Activity.gathering.inj hround).2) hid
  | answer hfree _ _ hbegins =>
    refine h.of_spares (same rfl rfl rfl Intake.holding_hush) False.elim (fun hmem => hmem)
      ⟨[], ?_, rfl⟩ (fun found hround => by cases (Activity.gathering.inj hround).2) rfl
    rw [hfree]
    exact (Intake.reportsIn_of_begins hbegins id).symm
  | gather hactivity hgather => exact hsilent (h.gather hactivity hgather)
  | conclude hactivity hend => exact hsilent (h.conclude hactivity hend)
  | @handle event events hactivity _ =>
    refine h.handle hsound.exchange.reachable.intact hactivity fun peer => ?_
    have hevents := hsound.events event
    rw [hactivity] at hevents
    exact hevents List.mem_cons_self id peer
  | close =>
    exact h.of_bystanding (.beginClosing hsound.exchange.reachable.intact) rfl (fun hmem => hmem) rfl rfl
  | stop => exact h.of_bystanding (.halt floor.exchange _) rfl (fun hmem => hmem) rfl rfl

theorem Run.kept (h : Run settings trace floor) (id : ClientId) : Kept id trace floor := by
  induction h with
  | start hnew =>
    obtain ⟨room, -, rfl⟩ := Exchange.exists_of_new hnew
    have hnone : id ∉ (Directory.new room settings.maxRooms).occupants := ExtTreeMap.not_mem_empty
    have hholding := @Intake.holding_atRest id settings.readiness settings.channelCapacity _ hnone
    have hreports : reportsOf { exchange := {
        hub := .start settings room
        intake := .atRest settings.readiness settings.channelCapacity
          (Directory.new room settings.maxRooms)
        orderCapacity := settings.channelCapacity
        patience := settings.shutdownTimeoutMs } } id = [] := by
      show [] ++ (Intake.holding _ id).reports = _
      rw [hholding]
      rfl
    refine ⟨fun hmem => absurd hmem ExtTreeSet.not_mem_empty, fun hmem => absurd hmem List.not_mem_nil,
      fun hmem => ?_, ?_, fun hfeed => ?_, fun hround => (by cases hround), fun _ => rfl,
      fun hregistration => ?_, ?_⟩
    · rw [hreports] at hmem
      cases hmem
    · rw [hreports]
      exact List.Pairwise.nil
    · rw [hholding] at hfeed
      cases hfeed
    · simp at hregistration
    · rw [hreports]
      rfl
  | step before hstep ih => exact ih.step before.bustle.sound hstep

end Floor

end ChatRooms
