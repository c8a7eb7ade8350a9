import ChatRooms.Proofs.Framing.Segments
import ChatRooms.Proofs.Service.Settled
import ChatRooms.Proofs.Settings.Assignments

namespace ChatRooms

open Std Framing

/-- What the worker of a connection reports next, if there is anything to report. -/
def Connection.due? (connection : Connection) : Option Report :=
  match connection.unheard with
  | line :: _ => some (.line line)
  | [] => if connection.isFinished then some .closed else none

/-- What is yet to be reported of what has come in. -/
def Connection.owed (connection : Connection) : List Report :=
  connection.unheard.map Report.line ++
    if connection.isFinished && connection.stage.holdsEnds then [.closed] else []

/-- The connection when a report of its worker has been taken. -/
def Connection.afterReport (connection : Connection) : Report → Connection
  | .line _ => { connection with unheard := connection.unheard.tail }
  | .closed => { connection with stage := .ended }

/-- Whatever else becomes of a connection, its input and what came of it stay. -/
structure Connection.KeepsInput (connection connection' : Connection) : Prop where
  received : connection'.received = connection.received
  unheard : connection'.unheard = connection.unheard
  isFinished : connection'.isFinished = connection.isFinished
  holdsEnds : connection'.stage.holdsEnds = connection.stage.holdsEnds

/-- Takes a report of a worker, if there is a place for it. -/
def Exchange.report (exchange : Exchange) (id : ClientId) : Report → Posting Exchange
  | .line text => exchange.forward id text
  | .closed => exchange.close id

namespace Service

/-- A connection since it was accepted: the pieces that it has received, whether its input is over, and
what its worker has reported. Everything was taken that was reported, and nobody else ended the worker. -/
inductive Serves (id : ClientId) : List (List UInt8) → Bool → List Report → Service → Prop
  | accepted {service service' : Service} {peer : Option SocketAddress}
      (haccept : service.accept id peer = .ok (some service')) : Serves id [] false [] service'
  | received {pieces : List (List UInt8)} {said : List Report} {service service' : Service}
      {bytes : List UInt8} {outputs : List Output} (before : Serves id pieces false said service)
      (hnote : service.note (.received id bytes) = .ok (service', outputs)) :
      Serves id (pieces ++ [bytes]) false said service'
  | inputEnded {pieces : List (List UInt8)} {said : List Report} {service service' : Service}
      {outputs : List Output} (before : Serves id pieces false said service)
      (hnote : service.note (.inputEnded id) = .ok (service', outputs)) :
      Serves id pieces true said service'
  | reports {pieces : List (List UInt8)} {isOver : Bool} {said : List Report} {service : Service}
      {connection : Connection} {report : Report} {exchange : Exchange}
      (before : Serves id pieces isOver said service)
      (hconnection : service.connections[id]? = some connection)
      (hworking : connection.stage = .working) (hdue : connection.due? = some report)
      (htaken : service.exchange.report id report = .accepted exchange) :
      Serves id pieces isOver (said ++ [report]) (service.forward id connection)
  /-- The hub, the other connections, and the way out of this one. -/
  | elsewhere {pieces : List (List UInt8)} {isOver : Bool} {said : List Report}
      {service service' : Service} {connection connection' : Connection}
      (before : Serves id pieces isOver said service)
      (hlimit : service'.maxLineLength = service.maxLineLength)
      (hconnection : service.connections[id]? = some connection)
      (hconnection' : service'.connections[id]? = some connection')
      (hkeeps : connection.KeepsInput connection') : Serves id pieces isOver said service'

/-- How far reading has come: there may be more to come, or what comes makes no difference. -/
inductive Progress (limit : Nat) (pieces : List (List UInt8)) :
    Bool → List Report → Connection → Prop
  | reading {connection : Connection} {said : List Report} {lines : List String}
      (hunfinished : connection.isFinished = false) (hends : connection.stage.holdsEnds = true)
      (hread : readLines limit pieces.flatten = { lines, rest := .ok connection.received })
      (hsaid : said ++ connection.owed = lines.map Report.line) :
      Progress limit pieces false said connection
  | finished {connection : Connection} {isOver : Bool} {said : List Report}
      (hfinished : connection.isFinished = true)
      (hover : isOver = true ∨ ∃ fault, (readLines limit pieces.flatten).rest = .error fault)
      (hunheard : connection.stage.holdsEnds = false → connection.unheard = [])
      (hsaid : said ++ connection.owed = (Framing.reports limit pieces).1) :
      Progress limit pieces isOver said connection

variable {limit : Nat} {pieces : List (List UInt8)} {isOver : Bool} {said : List Report}
  {connection connection' : Connection} {service service' : Service} {id : ClientId}
  {bytes : List UInt8} {report : Report} {exchange : Exchange}

theorem reports_fst (limit : Nat) (pieces : List (List UInt8)) : (Framing.reports limit pieces).1 =
    (readLines limit pieces.flatten).finished.1.map Report.line ++ [.closed] := by
  rw [Framing.reports, readAll_eq_finished]

theorem finished_fst_of_error {reading : Reading} {fault : LineFault}
    (h : reading.rest = .error fault) : reading.finished.1 = reading.lines := by
  rw [Reading.finished, h]

theorem readLines_append_of_error {fault : LineFault} (more : List UInt8)
    (h : (readLines limit bytes).rest = .error fault) :
    readLines limit (bytes ++ more) = readLines limit bytes := by
  rw [readLines_append, Reading.followedBy, h]

theorem flatten_append_singleton (pieces : List (List UInt8)) (bytes : List UInt8) :
    (pieces ++ [bytes]).flatten = pieces.flatten ++ bytes := by
  rw [List.flatten_append, List.flatten_cons, List.flatten_nil, List.append_nil]

theorem owed_of_unfinished (h : connection.isFinished = false) :
    connection.owed = connection.unheard.map Report.line := by
  rw [Connection.owed, h, Bool.false_and, if_neg Bool.false_ne_true, List.append_nil]

theorem owed_of_finished (h : connection.isFinished = true)
    (hends : connection.stage.holdsEnds = true) :
    connection.owed = connection.unheard.map Report.line ++ [.closed] := by
  rw [Connection.owed, h, hends, Bool.and_self, if_pos rfl]

namespace Progress

theorem keepsInput (h : Progress limit pieces isOver said connection)
    (hkeeps : connection.KeepsInput connection') : Progress limit pieces isOver said connection' := by
  have howed : connection'.owed = connection.owed := by
    rw [Connection.owed, hkeeps.unheard, hkeeps.isFinished, hkeeps.holdsEnds, Connection.owed]
  cases h with
  | reading hunfinished hends hread hsaid =>
    refine .reading (hkeeps.isFinished.trans hunfinished) (hkeeps.holdsEnds.trans hends) ?_
      (howed ▸ hsaid)
    rw [hread, hkeeps.received]
  | finished hfinished hover hunheard hsaid =>
    refine .finished (hkeeps.isFinished.trans hfinished) hover (fun hends => ?_) (howed ▸ hsaid)
    rw [hkeeps.unheard, hunheard (hkeeps.holdsEnds.symm.trans hends)]

theorem receive (h : Progress service.maxLineLength pieces false said connection)
    (bytes : List UInt8) : Progress service.maxLineLength (pieces ++ [bytes]) false said
      (service.receive connection bytes) := by
  cases h with
  | @reading _ _ lines hunfinished hends hread hsaid =>
    have hnext : readLines service.maxLineLength (pieces ++ [bytes]).flatten = {
        lines := lines ++ (readLines service.maxLineLength (connection.received ++ bytes)).lines
        rest := (readLines service.maxLineLength (connection.received ++ bytes)).rest } := by
      rw [flatten_append_singleton, readLines_append, hread]
      rfl
    rw [owed_of_unfinished hunfinished] at hsaid
    rw [Service.receive, if_neg (ne_true_of_eq_false hunfinished)]
    dsimp only
    split
    next received hrest =>
      refine .reading hunfinished hends (hnext.trans (by rw [hrest])) ?_
      rw [owed_of_unfinished (by exact hunfinished), List.map_append, List.map_append, ← hsaid,
        List.append_assoc]
    next fault hrest =>
      have hfault : (readLines service.maxLineLength (pieces ++ [bytes]).flatten).rest =
          .error fault := by
        rw [hnext, hrest]
      refine .finished rfl (Or.inr ⟨fault, hfault⟩) (absurd hends <| ne_true_of_eq_false ·) ?_
      rw [owed_of_finished rfl (by exact hends), reports_fst, finished_fst_of_error hfault, hnext,
        List.map_append, List.map_append, ← hsaid]
      simp only [List.append_assoc]
  | finished hfinished hover hunheard hsaid =>
    obtain hfalse | ⟨fault, hfault⟩ := hover
    · cases hfalse
    have hnext : readLines service.maxLineLength (pieces ++ [bytes]).flatten =
        readLines service.maxLineLength pieces.flatten := by
      rw [flatten_append_singleton, readLines_append_of_error bytes hfault]
    rw [Service.receive, if_pos hfinished]
    refine .finished hfinished (Or.inr ⟨fault, hnext ▸ hfault⟩) hunheard ?_
    rw [hsaid, reports_fst, reports_fst, hnext]

theorem finishInput (h : Progress limit pieces false said connection) :
    Progress limit pieces true said (finishInput connection) := by
  cases h with
  | @reading _ _ lines hunfinished hends hread hsaid =>
    have hreports : (Framing.reports limit pieces).1 = (Reading.finished
        { lines, rest := .ok connection.received }).1.map Report.line ++ [.closed] := by
      rw [reports_fst, hread]
    rw [owed_of_unfinished hunfinished] at hsaid
    rw [Service.finishInput, if_neg (ne_true_of_eq_false hunfinished)]
    unfold Reading.finished at hreports
    dsimp only at hreports
    split
    next line hline =>
      refine .finished rfl (Or.inl rfl) (absurd hends <| ne_true_of_eq_false ·) ?_
      rw [owed_of_finished rfl (by exact hends), hreports, hline, List.map_append, List.map_append,
        ← hsaid]
      simp only [List.append_assoc]
    next hlast =>
      have hlines : (Framing.reports limit pieces).1 = lines.map Report.line ++ [.closed] := by
        rw [hreports]
        cases hvalue : lastLine connection.received with
        | error fault => rfl
        | ok line? =>
          cases line? with
          | none => rfl
          | some line => exact absurd hvalue (hlast line)
      refine .finished rfl (Or.inl rfl) (absurd hends <| ne_true_of_eq_false ·) ?_
      rw [owed_of_finished rfl (by exact hends), hlines, ← hsaid, List.append_assoc]
  | finished hfinished hover hunheard hsaid =>
    rw [Service.finishInput, if_pos hfinished]
    exact .finished hfinished (Or.inl rfl) hunheard hsaid

theorem reported (h : Progress limit pieces isOver said connection)
    (hworking : connection.stage = .working) (hdue : connection.due? = some report) :
    Progress limit pieces isOver (said ++ [report]) (connection.afterReport report) := by
  have howed : report :: (connection.afterReport report).owed = connection.owed := by
    unfold Connection.due? at hdue
    unfold Connection.owed
    split at hdue
    next line unheard hunheard =>
      obtain rfl := Option.some.inj hdue
      rw [hunheard]
      simp only [Connection.afterReport, hunheard]
      rfl
    next hunheard =>
      obtain ⟨hfinished, hdue⟩ := Option.ite_none_right_eq_some.1 hdue
      obtain rfl := Option.some.inj hdue
      rw [hunheard, hfinished, hworking]
      simp only [Connection.afterReport, hunheard, hfinished]
      rfl
  have hsaid {all : List Report} (hall : said ++ connection.owed = all) :
      said ++ [report] ++ (connection.afterReport report).owed = all := by
    rw [List.append_assoc, List.singleton_append, howed, hall]
  have hkept : (connection.afterReport report).isFinished = connection.isFinished := by
    cases report <;> rfl
  cases h with
  | reading hunfinished hends hread hall =>
    -- Whoever may read on does not say yet that there is no more.
    cases report with
    | line text => exact .reading hunfinished hends hread (hsaid hall)
    | closed =>
      unfold Connection.due? at hdue
      rw [hunfinished] at hdue
      split at hdue <;> cases hdue
  | finished hfinished hover hunheard hall =>
    refine .finished (hkept.trans hfinished) hover (fun hends => ?_) (hsaid hall)
    cases report with
    | line text =>
      have hholds : connection.stage.holdsEnds = true := by rw [hworking]; rfl
      exact absurd (hholds.symm.trans hends) Bool.true_eq_false_eq_False
    | closed =>
      unfold Connection.due? at hdue
      split at hdue
      next => cases hdue
      next hnone => exact hnone

end Progress

theorem connections_forward (hconnection : service.connections[id]? = some connection)
    (hdue : connection.due? = some report)
    (htaken : service.exchange.report id report = .accepted exchange) :
    (service.forward id connection).connections[id]? = some (connection.afterReport report) := by
  unfold Connection.due? at hdue
  unfold Service.forward
  cases hunheard : connection.unheard with
  | cons line unheard =>
    rw [hunheard] at hdue
    obtain rfl := Option.some.inj hdue
    have hforward : service.exchange.forward id line = .accepted exchange := htaken
    dsimp only
    rw [hforward]
    dsimp only
    rw [update, ExtTreeMap.getElem?_modify_self, hconnection, Option.map_some,
      Connection.afterReport, hunheard]
    rfl
  | nil =>
    rw [hunheard] at hdue
    obtain ⟨hfinished, hdue⟩ := Option.ite_none_right_eq_some.1 hdue
    obtain rfl := Option.some.inj hdue
    have hclose : service.exchange.close id = .accepted exchange := htaken
    dsimp only
    rw [if_pos hfinished, hclose]
    dsimp only
    rw [setStage, update, ExtTreeMap.getElem?_modify_self, hconnection, Option.map_some]
    rfl

theorem maxLineLength_forward (service : Service) (id : ClientId) (connection : Connection) :
    (service.forward id connection).maxLineLength = service.maxLineLength := by
  unfold Service.forward
  repeat' split
  all_goals rfl

namespace Serves

theorem progress (h : Serves id pieces isOver said service) : ∃ connection,
    service.connections[id]? = some connection ∧
      Progress service.maxLineLength pieces isOver said connection := by
  induction h with
  | @accepted service _ _ haccept =>
    obtain ⟨-, outbox, -, rfl⟩ := exists_of_accept haccept
    have hread : readLines service.maxLineLength [] = { lines := [], rest := .ok [] } :=
      (readLines_of_none (by rw [splitLine])).trans (if_neg (Nat.not_lt_zero _))
    exact ⟨_, ExtTreeMap.getElem?_insert_self, .reading rfl rfl hread rfl⟩
  | @received _ _ service _ bytes _ _ hnote ih =>
    obtain ⟨rfl, -⟩ := Prod.mk.inj (Except.ok.inj hnote)
    obtain ⟨connection, hconnection, hprogress⟩ := ih
    refine ⟨service.receive connection bytes, ?_, hprogress.receive bytes⟩
    rw [update, ExtTreeMap.getElem?_modify_self, hconnection, Option.map_some]
  | @inputEnded _ _ service _ _ _ hnote ih =>
    obtain ⟨rfl, -⟩ := Prod.mk.inj (Except.ok.inj hnote)
    obtain ⟨connection, hconnection, hprogress⟩ := ih
    refine ⟨Service.finishInput connection, ?_, hprogress.finishInput⟩
    rw [update, ExtTreeMap.getElem?_modify_self, hconnection, Option.map_some]
  | reports _ hconnection hworking hdue htaken ih =>
    obtain ⟨connection', hconnection', hprogress⟩ := ih
    obtain rfl := Option.some.inj (hconnection.symm.trans hconnection')
    rw [maxLineLength_forward]
    exact ⟨_, connections_forward hconnection hdue htaken, hprogress.reported hworking hdue⟩
  | elsewhere _ hlimit hconnection hconnection' hkeeps ih =>
    obtain ⟨before, hbefore, hprogress⟩ := ih
    obtain rfl := Option.some.inj (hconnection.symm.trans hbefore)
    rw [hlimit]
    exact ⟨_, hconnection', hprogress.keepsInput hkeeps⟩

/-- However the input of a worker was cut, what it reports is the lines of the segments before the first
that is none, and then the end, once. Either that is what it has reported, or the next of it is due. -/
theorem reports_segments {settings : Settings} (h : Serves id pieces true said service)
    (hcheck : settings.check = .ok ()) (hlimit : service.maxLineLength = settings.maxLineLength) :
    ∃ (connection : Connection) (lines : List String) (passed left : List (List UInt8)),
      service.connections[id]? = some connection ∧
      segments pieces.flatten = passed ++ left ∧
      passed.map (lineOf service.maxLineLength) = lines.map Except.ok ∧
      (∀ segment ∈ left.head?, ∃ fault, lineOf service.maxLineLength segment = .error fault) ∧
      Framing.reports service.maxLineLength pieces =
        (lines.map Report.line ++ [.closed], endingAt service.maxLineLength left) ∧
      if connection.stage.holdsEnds then
        ∃ report, connection.due? = some report ∧
          said ++ [report] <+: lines.map Report.line ++ [.closed]
      else said = lines.map Report.line ++ [.closed] := by
  obtain ⟨connection, hconnection, hprogress⟩ := h.progress
  have hall := readAll_eq_finished service.maxLineLength pieces
  have hpositive : 0 < service.maxLineLength :=
    hlimit ▸ Nat.pos_of_ne_zero (Settings.isChecked_of_check hcheck).maxLineLength
  rw [finished_readLines hpositive] at hall
  obtain ⟨passed, left, hsegments, hpassed, hending, hleft⟩ :=
    exists_of_linesOf service.maxLineLength (segments pieces.flatten)
  have hreports : Framing.reports service.maxLineLength pieces =
      ((linesOf service.maxLineLength (segments pieces.flatten)).1.map Report.line ++ [.closed],
        endingAt service.maxLineLength left) := by
    rw [Framing.reports, hall, ← hending]
  refine ⟨connection, _, passed, left, hconnection, hsegments, hpassed, hleft, hreports, ?_⟩
  cases hprogress with
  | finished hfinished _ hunheard hsaid =>
    rw [hreports] at hsaid
    dsimp only at hsaid
    rw [← hsaid]
    split
    next hends =>
      rw [owed_of_finished hfinished hends]
      unfold Connection.due?
      rw [hfinished]
      cases connection.unheard with
      | nil => exact ⟨.closed, rfl, by simp⟩
      | cons line unheard => exact ⟨.line line, rfl, by simp⟩
    next hends =>
      rw [Bool.not_eq_true] at hends
      rw [Connection.owed, hunheard hends, hends, Bool.and_false, if_neg Bool.false_ne_true,
        List.map_nil, List.append_nil, List.append_nil]

end Serves

/-- A carriage return is cut off from its newline. The line before them is all there is, because the next
one is too long, though it comes in two pieces that are not. -/
theorem reports_segments_cut_up :
    let pieces : List (List UInt8) := [[97, 98, 13], [10, 99, 100, 101], [102]]
    ∃ service, Serves 1 pieces true [.line "ab", .closed] service ∧ service.maxLineLength = 3 ∧
      (Framing.reports 3 pieces).1 = [.line "ab", .closed] := by
  intro pieces
  let general : RoomName := ⟨"general", by decide⟩
  let opened : Service := {
    exchange := {
      hub := .start {} general, intake := .addressed { capacity := 4 }, orderCapacity := 4, patience := 0 }
    maxClients := 1, maxLineLength := 3, clientQueue := 4, freeSlots := 1 }
  let accepted : Service := ((opened.accept 1 none).toOption.bind id).getD opened
  have haccepted : Serves 1 [] false [] accepted := @Serves.accepted _ opened _ none rfl
  have hworking : Serves 1 [] false [] (accepted.setStage 1 .working) :=
    haccepted.elsewhere rfl rfl rfl ⟨rfl, rfl, rfl, rfl⟩
  have hfirst := @Serves.received _ _ _ _ _ [97, 98, 13] _ hworking rfl
  have hsecond := @Serves.received _ _ _ _ _ [10, 99, 100, 101] _ hfirst rfl
  have hread := @Serves.received _ _ _ _ _ [102] _ hsecond rfl
  let heard : Connection := { stage := .working, unheard := ["ab"], isFinished := true }
  have hline := @Serves.reports _ _ _ _ _ heard (.line "ab") _ (hread.inputEnded rfl)
    (by decide +kernel) rfl rfl rfl
  have hsaid := @Serves.reports _ _ _ _ _ { heard with unheard := [] } .closed _ hline
    (by decide +kernel) rfl rfl rfl
  refine ⟨_, hsaid, rfl, ?_⟩
  obtain ⟨connection, lines, passed, left, hconnection, -, -, -, hreports, hdone⟩ :=
    @Serves.reports_segments _ _ _ _ { maxLineLength := 3 } hsaid rfl rfl
  obtain rfl := Option.some.inj hconnection
  exact (congrArg Prod.fst hreports).trans hdone.symm

end Service

end ChatRooms
