import ChatRooms.Proofs.Exchange.Deed

namespace ChatRooms

open Std

/-- Whether the request can change who is where, or under which name. -/
def Request.isMutating : Request → Bool
  | .chat _ | .whisper _ _ => false
  | .command asked => asked.isMutating

namespace Exchange

/-- Writes and sends as it goes along. What has been done when it is stopped remains done. -/
abbrev Work := ExceptT Stop (StateM Exchange)

/-- What comes of the work, and how it leaves the exchange. -/
def attempt {α : Type} (exchange : Exchange) (work : Work α) : Except Stop α × Exchange :=
  work.run.run exchange

def withDirectory (exchange : Exchange) (directory : Directory) : Exchange :=
  { exchange with hub := { exchange.hub with directory } }

namespace Work

def require {α : Type} : Except Refusal α → Work α
  | .ok a => pure a
  | .error refusal => throw (.refused refusal)

def directory : Work Directory := do
  return (← get).hub.directory

def write (directory : Directory) : Work Unit :=
  modify fun exchange => exchange.withDirectory directory

def client (id : ClientId) : Work Occupant := do
  require ((← directory).occupant id)

def send (effects : List Effect) : Work Unit :=
  modify fun exchange => effects.foldl apply exchange

def broadcast (room : RoomName) (notice : Notice) (spared : Option ClientId) : Work Unit := do
  send (Hub.broadcast (← directory) room notice spared)

/-- For changes that are checked entirely before they are made. -/
def change (f : Directory → Except Refusal Directory) : Work Unit := do
  write (← require (f (← directory)))

def vacate (id : ClientId) (room : RoomName) : Work Bool := do
  match (← directory).vacate id room with
  | .error defect => throw (.broken defect)
  | .ok (after, vacated) =>
    write after
    return vacated

def found (room : RoomName) : Work Unit := do
  let before ← directory
  write { before with rooms := before.rooms.insert room { name := room } }

/-- Only when the room has its new member is the client looked up to be told so. -/
def enter (id : ClientId) (room : RoomName) : Work Unit := do
  write ((← directory).enter id room)
  let client ← client id
  let before ← directory
  write { before with occupants := before.occupants.insert id { client with room } }

def relocate (id : ClientId) (target : RoomName) (create : Bool) : Work Move := do
  let origin := (← client id).room
  if origin = target then return .unchanged
  else
    let before ← directory
    let created := !before.hasRoom target
    require (if created then before.mayCreate origin target create else .ok ())
    let vacated ← vacate id origin
    if created then found target
    enter id target
    return .moved origin target created vacated

def renickname (id : ClientId) (nickname : String) : Work String := do
  let (directory, old) ← require ((← directory).rename id nickname)
  write directory
  return old

def chat (id : ClientId) (text : String) : Work Unit := do
  let client ← client id
  let echo := (← get).hub.echoChatToSender
  broadcast client.room (.chat client.room client.nickname text) (if echo then none else some id)

def whisper (id : ClientId) (target body : String) : Work Unit := do
  let sender ← client id
  match ((← directory).findByNickname? target).filter Occupant.isActive with
  | none => throw (.refused (.userNotFound target))
  | some hearer =>
    send [.deliver hearer.id (.whisperFrom sender.nickname body)]
    send [.deliver id (.whisperTo target body)]

def move (id : ClientId) (target : RoomName) (create : Bool) : Work Unit := do
  let nickname := (← client id).nickname
  match ← relocate id target create with
  | .unchanged => send [.deliver id (.alreadyIn target)]
  | .moved origin target _ vacated =>
    if !vacated then broadcast origin (.left nickname origin) (some id)
    broadcast target (.joined nickname target) (some id)
    send [.deliver id (.moved target)]

/-- The client is looked up once more when it has its new nickname. -/
def rename (id : ClientId) (nickname : String) : Work Unit := do
  if (← client id).nickname = nickname then send [.deliver id (.nicknameSet nickname)]
  else
    let old ← renickname id nickname
    let room := (← client id).room
    send [.deliver id (.nicknameSet nickname)]
    broadcast room (.renamed old nickname) (some id)

/-- The client is looked up when it has been told goodbye. -/
def quit (id : ClientId) : Work Unit := do
  send [.deliver id .goodbye]
  change fun directory => directory.hangUp id
  send [.hangUp id]

def command (id : ClientId) : Command → Work Unit
  | .add room => do
    change fun directory => directory.addRoom room
    send [.deliver id (.roomCreated room)]
  | .remove room => do
    change fun directory => directory.removeRoom room
    send [.deliver id (.roomRemoved room)]
  | .join room => do
    move id room (← get).hub.autoCreateRooms
  | .leave => do
    let room := (← directory).defaultRoom
    if (← client id).room = room then throw (.refused (.alreadyDefault room.text))
    move id room false
  | .list => do
    send [.deliver id (.roomList (← directory).roomSummaries)]
  | .users => do
    let room := (← client id).room
    send [.deliver id (.userList room ((← directory).nicknamesIn room))]
  | .nickname name => rename id name
  | .quit => quit id
  | .help => send [.deliver id .help]

def dispatch (id : ClientId) : Request → Work Unit
  | .chat text => chat id text
  | .whisper target body => whisper id target body
  | .command command => Work.command id command

/-- Decodes a line and does what it asks for. -/
def answer (id : ClientId) (line : String) : Work Unit := do
  dispatch id (← require (Request.decode line))

end Work

/-- A request that is not stopped is carried out, and one that is leaves everything as it was. -/
def concluded (exchange : Exchange) :
    Except Stop (Hub × List Effect) → Except Stop Unit × Exchange
  | .ok (hub, effects) => (.ok (), effects.foldl apply { exchange with hub })
  | .error stop => (.error stop, exchange)

section

variable {α β : Type} {exchange after : Exchange} {a : α} {stop : Stop} {work : Work α}
  {next : α → Work β} {id : ClientId} {client : Occupant} {room : RoomName}
  {directory : Directory} {vacated : Bool}

@[simp]
theorem directory_withDirectory :
    (exchange.withDirectory directory).hub.directory = directory :=
  rfl

@[simp]
theorem withDirectory_withDirectory {directory' : Directory} :
    (exchange.withDirectory directory).withDirectory directory' =
      exchange.withDirectory directory' :=
  rfl

theorem attempt_bind (work : Work α) (next : α → Work β) :
    exchange.attempt (work >>= next) =
      match exchange.attempt work with
      | (.ok a, after) => after.attempt (next a)
      | (.error stop, after) => (.error stop, after) := by
  simp only [attempt, ExceptT.run_bind, StateT.run_bind]
  obtain ⟨result, after⟩ := work.run.run exchange
  cases result <;> rfl

theorem attempt_bind_ok (h : exchange.attempt work = (.ok a, after)) :
    exchange.attempt (work >>= next) = after.attempt (next a) := by
  rw [attempt_bind, h]

theorem attempt_bind_error (h : exchange.attempt work = (.error stop, after)) :
    exchange.attempt (work >>= next) = (.error stop, after) := by
  rw [attempt_bind, h]

theorem attempt_get : exchange.attempt (get : Work Exchange) = (.ok exchange, exchange) :=
  rfl

theorem attempt_directory :
    exchange.attempt Work.directory = (.ok exchange.hub.directory, exchange) :=
  rfl

theorem attempt_write (directory : Directory) :
    exchange.attempt (Work.write directory) =
      (.ok (), exchange.withDirectory directory) :=
  rfl

theorem attempt_send (effects : List Effect) :
    exchange.attempt (Work.send effects) = (.ok (), effects.foldl apply exchange) :=
  rfl

theorem attempt_require_ok : exchange.attempt (Work.require (.ok a)) = (.ok a, exchange) :=
  rfl

theorem attempt_require_error {refusal : Refusal} :
    exchange.attempt (Work.require (.error refusal) : Work α) =
      (.error (.refused refusal), exchange) :=
  rfl

theorem attempt_broadcast {notice : Notice} {spared : Option ClientId}
    (hdirectory : exchange.hub.directory = directory) :
    exchange.attempt (Work.broadcast room notice spared) =
      (.ok (), (Hub.broadcast directory room notice spared).foldl apply exchange) := by
  rw [← hdirectory]
  rfl

theorem attempt_client (hid : exchange.hub.directory.occupants[id]? = some client) :
    exchange.attempt (Work.client id) = (.ok client, exchange) := by
  rw [Work.client, attempt_bind_ok attempt_directory, Directory.occupant, hid, attempt_require_ok]

theorem attempt_change (f : Directory → Except Refusal Directory) :
    exchange.attempt (Work.change f) =
      match f exchange.hub.directory with
      | .ok directory => (.ok (), exchange.withDirectory directory)
      | .error refusal => (.error (.refused refusal), exchange) := by
  rw [Work.change, attempt_bind_ok attempt_directory]
  cases f exchange.hub.directory <;> rfl

theorem attempt_vacate (hroom : exchange.hub.directory.vacate id room = .ok (directory, vacated)) :
    exchange.attempt (Work.vacate id room) =
      (.ok vacated, exchange.withDirectory directory) := by
  rw [Work.vacate, attempt_bind_ok attempt_directory, hroom]
  rfl

theorem enter_occupants (directory : Directory) :
    (directory.enter id room).occupants = directory.occupants := by
  unfold Directory.enter
  split <;> rfl

theorem attempt_found :
    exchange.attempt (Work.found room) = (.ok (), exchange.withDirectory
      { exchange.hub.directory with
        rooms := exchange.hub.directory.rooms.insert room { name := room } }) :=
  rfl

theorem attempt_enter (hid : exchange.hub.directory.occupants[id]? = some client) :
    exchange.attempt (Work.enter id room) = (.ok (), exchange.withDirectory
      { exchange.hub.directory.enter id room with
        occupants :=
          (exchange.hub.directory.enter id room).occupants.insert id { client with room } }) := by
  have hlate : (exchange.withDirectory
      (exchange.hub.directory.enter id room)).hub.directory.occupants[id]? = some client := by
    rw [withDirectory, enter_occupants, hid]
  rw [Work.enter, attempt_bind_ok attempt_directory, attempt_bind_ok (attempt_write _),
    attempt_bind_ok (attempt_client hlate)]
  rfl

theorem attempt_relocate (h : exchange.hub.directory.Intact)
    (hid : exchange.hub.directory.occupants[id]? = some client) (target : RoomName)
    (create : Bool) :
    exchange.attempt (Work.relocate id target create) =
      match exchange.hub.directory.move id target create with
      | .ok (directory, move) => (.ok move, exchange.withDirectory directory)
      | .error stop => (.error stop, exchange) := by
  obtain ⟨room, hroom⟩ := h.room_getElem? hid
  obtain ⟨left, vacated, hvacate, hleft⟩ : ∃ left vacated,
      exchange.hub.directory.vacate id client.room = .ok (left, vacated) ∧
        left.occupants[id]? = some client :=
    ⟨_, _, Directory.vacate_of_getElem? hroom, hid⟩
  rw [Work.relocate, attempt_bind_ok (attempt_client hid), Directory.move, hid]
  dsimp only
  by_cases hsame : client.room = target
  · rw [if_pos hsame, if_pos hsame]
    rfl
  · rw [if_neg hsame, if_neg hsame, attempt_bind_ok attempt_directory]
    cases hcheck : if !exchange.hub.directory.hasRoom target then
        exchange.hub.directory.mayCreate client.room target create else .ok () with
    | error refusal =>
      rw [attempt_bind_error attempt_require_error]
    | ok =>
      rw [attempt_bind_ok attempt_require_ok, attempt_bind_ok (attempt_vacate hvacate), hvacate]
      cases exchange.hub.directory.hasRoom target with
      | true =>
        have hleft : (exchange.withDirectory left).hub.directory.occupants[id]? = some client := hleft
        simp only [Bool.not_true, Bool.false_eq_true, if_false]
        rw [attempt_bind_ok (attempt_enter hleft)]
        rfl
      | false =>
        have hfounded : (exchange.withDirectory { left with
            rooms := left.rooms.insert target { name := target } }).hub.directory.occupants[id]? =
              some client := hleft
        simp only [Bool.not_false, if_true]
        rw [attempt_bind_ok attempt_found, directory_withDirectory, withDirectory_withDirectory,
          attempt_bind_ok (attempt_enter hfounded)]
        rfl

theorem attempt_chat (hid : exchange.hub.directory.occupants[client.id]? = some client)
    (text : String) :
    exchange.attempt (Work.chat client.id text) =
      exchange.concluded (exchange.hub.perform client (.chat text)) := by
  rw [Work.chat, attempt_bind_ok (attempt_client hid), attempt_bind_ok attempt_get,
    attempt_broadcast rfl]
  rfl

theorem attempt_whisper (hid : exchange.hub.directory.occupants[client.id]? = some client)
    (target body : String) :
    exchange.attempt (Work.whisper client.id target body) =
      exchange.concluded (exchange.hub.perform client (.whisper target body)) := by
  rw [Work.whisper, attempt_bind_ok (attempt_client hid), attempt_bind_ok attempt_directory,
    Hub.perform, Hub.whisper]
  cases (exchange.hub.directory.findByNickname? target).filter Occupant.isActive <;> rfl

theorem attempt_move (h : exchange.hub.directory.Intact)
    (hid : exchange.hub.directory.occupants[client.id]? = some client) (target : RoomName)
    (create : Bool) :
    exchange.attempt (Work.move client.id target create) =
      exchange.concluded (exchange.hub.move client target create) := by
  have hrelocate := attempt_relocate h hid target create
  rw [Work.move, attempt_bind_ok (attempt_client hid), Hub.move]
  cases hmove : exchange.hub.directory.move client.id target create with
  | error stop =>
    rw [hmove] at hrelocate
    rw [attempt_bind_error hrelocate]
    rfl
  | ok outcome =>
    obtain ⟨directory, move⟩ := outcome
    rw [hmove] at hrelocate
    rw [attempt_bind_ok hrelocate]
    cases move with
    | unchanged => rfl
    | moved origin destination created vacated =>
      have hkept : ∀ effects : List Effect,
          (effects.foldl apply (exchange.withDirectory directory)).hub.directory = directory := by
        intro effects
        rw [foldl_apply_hub, directory_withDirectory]
      obtain rfl := Hub.target_of_move hmove
      cases vacated with
      | true =>
        simp only [Bool.not_true, Bool.false_eq_true, if_false, if_true, List.nil_append]
        rw [attempt_bind_ok (attempt_broadcast directory_withDirectory), attempt_send, concluded,
          List.foldl_append]
        rfl
      | false =>
        simp only [Bool.not_false, Bool.false_eq_true, if_false, if_true]
        rw [attempt_bind_ok (attempt_broadcast directory_withDirectory),
          attempt_bind_ok (attempt_broadcast (hkept _)), attempt_send, concluded,
          List.foldl_append, List.foldl_append]
        rfl

theorem attempt_rename (hid : exchange.hub.directory.occupants[client.id]? = some client)
    (nickname : String) :
    exchange.attempt (Work.rename client.id nickname) =
      exchange.concluded (Hub.orRefuse (exchange.hub.rename client nickname)) := by
  rw [Work.rename, attempt_bind_ok (attempt_client hid), Hub.rename]
  by_cases hsame : client.nickname = nickname
  · rw [if_pos hsame, if_pos hsame]
    rfl
  · rw [if_neg hsame, if_neg hsame]
    cases hrename : exchange.hub.directory.rename client.id nickname with
    | error refusal =>
      have hstopped : exchange.attempt (Work.renickname client.id nickname) =
          (.error (.refused refusal), exchange) := by
        rw [Work.renickname, attempt_bind_ok attempt_directory, hrename,
          attempt_bind_error attempt_require_error]
      rw [attempt_bind_error hstopped]
      rfl
    | ok outcome =>
      obtain ⟨directory, old⟩ := outcome
      have hrenamed : exchange.attempt (Work.renickname client.id nickname) =
          (.ok old, exchange.withDirectory directory) := by
        rw [Work.renickname, attempt_bind_ok attempt_directory, hrename,
          attempt_bind_ok attempt_require_ok]
        rfl
      have hlate : (exchange.withDirectory directory).hub.directory.occupants[client.id]? =
          some { client with nickname } := by
        obtain ⟨found, hfound, -, heq⟩ := Directory.occupants_of_rename hrename
        obtain rfl := Option.some.inj (hid.symm.trans hfound)
        rw [directory_withDirectory, heq, ExtTreeMap.getElem?_insert_self]
      rw [attempt_bind_ok hrenamed, attempt_bind_ok (attempt_client hlate),
        attempt_bind_ok (attempt_send _), attempt_broadcast rfl]
      rfl

theorem attempt_quit (hid : exchange.hub.directory.occupants[client.id]? = some client) :
    exchange.attempt (Work.quit client.id) =
      exchange.concluded (Hub.orRefuse (exchange.hub.quit client)) := by
  rw [Work.quit, attempt_bind_ok (attempt_send _), attempt_bind, attempt_change, Hub.quit,
    foldl_apply_hub]
  have hquit : exchange.hub.directory.hangUp client.id = .ok { exchange.hub.directory with
      occupants := exchange.hub.directory.occupants.insert client.id client.hangUp } := by
    rw [Directory.hangUp, Directory.amend, hid]
  rw [hquit]
  rfl

theorem attempt_command (h : exchange.hub.directory.Intact)
    (hid : exchange.hub.directory.occupants[client.id]? = some client) (command : Command) :
    exchange.attempt (Work.command client.id command) =
      exchange.concluded (exchange.hub.command client command) := by
  cases command with
  | add room =>
    rw [Work.command, attempt_bind, attempt_change, Hub.command]
    cases exchange.hub.directory.addRoom room <;> rfl
  | remove room =>
    rw [Work.command, attempt_bind, attempt_change, Hub.command]
    cases exchange.hub.directory.removeRoom room <;> rfl
  | join room => exact attempt_move h hid room exchange.hub.autoCreateRooms
  | leave =>
    rw [Work.command, attempt_bind_ok attempt_directory, attempt_bind_ok (attempt_client hid),
      Hub.command]
    dsimp only
    split
    next => rfl
    next => exact attempt_move h hid _ false
  | list | help => rfl
  | users =>
    rw [Work.command, attempt_bind_ok (attempt_client hid)]
    rfl
  | nickname name => exact attempt_rename hid name
  | quit => exact attempt_quit hid

/-- With an intact directory, no request is stopped after it has changed or sent something. -/
theorem attempt_dispatch (h : exchange.hub.directory.Intact)
    (hid : exchange.hub.directory.occupants[client.id]? = some client) (request : Request) :
    exchange.attempt (Work.dispatch client.id request) =
      exchange.concluded (exchange.hub.perform client request) := by
  cases request with
  | chat text => exact attempt_chat hid text
  | whisper target body => exact attempt_whisper hid target body
  | command command => exact attempt_command h hid command

theorem attempt_answer (h : exchange.hub.directory.Intact)
    (hid : exchange.hub.directory.occupants[client.id]? = some client) (line : String) :
    exchange.attempt (Work.answer client.id line) =
      exchange.concluded (Hub.orRefuse (Request.decode line) >>= exchange.hub.perform client) := by
  rw [Work.answer]
  cases Request.decode line with
  | error refusal =>
    rw [attempt_bind_error attempt_require_error]
    rfl
  | ok request =>
    rw [attempt_bind_ok attempt_require_ok]
    exact attempt_dispatch h hid request

/-- Only performing a line and the audit after it are to be looked at while a client is active. -/
theorem handle_line (hid : exchange.hub.directory.occupants[client.id]? = some client)
    (hactive : client.isActive = true) (line : String) :
    exchange.hub.handle (.line client.id line) = Hub.audited (exchange.hub.request client line) := by
  rw [Hub.handle, Hub.hear, hid]
  dsimp only
  rw [if_pos hactive]

theorem handle_of_refused (h : exchange.hub.directory.Intact)
    (hid : exchange.hub.directory.occupants[client.id]? = some client)
    (hactive : client.isActive = true) {line : String} {refusal : Refusal}
    (hrefused : Hub.orRefuse (Request.decode line) >>= exchange.hub.perform client =
      .error (.refused refusal)) :
    exchange.handle [.line client.id line] =
      exchange.updateOutbox client.id (·.offer (Notice.refused refusal).line) := by
  have hhandle : exchange.hub.handle (.line client.id line) =
      .ok (exchange.hub, [.deliver client.id (.refused refusal)]) := by
    rw [handle_line hid hactive, Hub.request, hrefused, Hub.audited_eq h]
  rw [handle_singleton hhandle]
  rfl

theorem handle_of_performed (h : exchange.hub.directory.Intact)
    (hid : exchange.hub.directory.occupants[client.id]? = some client)
    (hactive : client.isActive = true) {line : String} {hub : Hub} {effects : List Effect}
    (hperformed : Hub.orRefuse (Request.decode line) >>= exchange.hub.perform client =
      .ok (hub, effects)) :
    exchange.handle [.line client.id line] = effects.foldl apply { exchange with hub } := by
  have hintact : hub.directory.Intact := by
    cases hdecode : Request.decode line with
    | error refusal => simp [hdecode, Hub.orRefuse, bind, Except.bind] at hperformed
    | ok request =>
      rw [hdecode] at hperformed
      exact (Hub.performs_of_perform hperformed).intact h
  have hhandle : exchange.hub.handle (.line client.id line) = .ok (hub, effects) := by
    rw [handle_line hid hactive, Hub.request, hperformed, Hub.audited_eq hintact]
  rw [handle_singleton hhandle]

theorem eq_of_quiet {request : Request} {hub hub' : Hub} {effects : List Effect}
    (hperform : Hub.Performs hub client request hub' effects)
    (hquiet : request.isMutating = false) : hub' = hub := by
  cases hperform with
  | chat | whisper | list | users | keepNickname | help => rfl
  | add | remove | nickname | quit => cases hquiet
  | stay hcommand | move hcommand => rcases hcommand with ⟨rfl, -⟩ | ⟨rfl, -⟩ <;> cases hquiet

theorem handle_of_quiet (h : exchange.hub.directory.Intact)
    (hid : exchange.hub.directory.occupants[client.id]? = some client)
    (hactive : client.isActive = true) {line : String} {request : Request}
    (hdecode : Request.decode line = .ok request) (hquiet : request.isMutating = false) :
    ∃ outboxes, exchange.handle [.line client.id line] = { exchange with outboxes } := by
  have hdo : Hub.orRefuse (Request.decode line) >>= exchange.hub.perform client =
      exchange.hub.perform client request := by
    rw [hdecode]
    rfl
  cases hperform : exchange.hub.perform client request with
  | ok outcome =>
    obtain ⟨hub, effects⟩ := outcome
    have hstep := Hub.performs_of_perform hperform
    obtain rfl := eq_of_quiet hstep hquiet
    obtain ⟨outboxes, heffects⟩ := exists_foldl_apply effects exchange
    refine ⟨outboxes, ?_⟩
    rw [handle_of_performed h hid hactive (hdo.trans hperform)]
    refine (heffects exchange.intake).trans ?_
    rw [Intake.foldl_absorb_of_isOutward hstep.isOutward]
  | error stop =>
    cases stop with
    | broken defect => exact absurd hperform (Hub.perform_ne_broken h defect)
    | refused refusal =>
      exact ⟨_, handle_of_refused h hid hactive (hdo.trans hperform)⟩

theorem request_ne_broken (h : exchange.hub.directory.Intact) {line : String} (defect : Defect) :
    Hub.orRefuse (Request.decode line) >>= exchange.hub.perform client ≠
      .error (.broken defect) := by
  cases Request.decode line with
  | error refusal => exact nofun
  | ok request => exact Hub.perform_ne_broken h defect

/-- A request that is refused leaves everything as it was but for one line to whoever made it, also if
it has been worked at in place until it was stopped. Those that are not to change anything do not. -/
theorem refused_changes_nothing {settings : Settings} (h : Hub.Reachable settings exchange.hub)
    (hid : exchange.hub.directory.occupants[id]? = some client) (hactive : client.isActive = true)
    (line : String) :
    (∀ refusal, (Request.decode line = .error refusal ∨ ∃ request,
        Request.decode line = .ok request ∧
          exchange.hub.perform client request = .error (.refused refusal)) →
      exchange.handle [.line id line] =
        exchange.updateOutbox id (·.offer (Notice.refused refusal).line)) ∧
    (∀ stop after, exchange.attempt (Work.answer id line) = (.error stop, after) →
      after = exchange ∧ ∃ refusal, stop = .refused refusal ∧
        exchange.handle [.line id line] =
          after.updateOutbox id (·.offer (Notice.refused refusal).line)) ∧
    (∀ after, exchange.attempt (Work.answer id line) = (.ok (), after) →
      exchange.handle [.line id line] = after) ∧
    ∀ request, Request.decode line = .ok request → request.isMutating = false →
      ∃ outboxes, exchange.handle [.line id line] = { exchange with outboxes } := by
  have hintact := h.intact
  obtain rfl := hintact.occupant_id hid
  have hanswer := attempt_answer hintact hid line
  refine ⟨fun refusal hrefused => ?_, fun stop after hstopped => ?_, fun after hdone => ?_,
    fun request => handle_of_quiet hintact hid hactive⟩
  · apply handle_of_refused hintact hid hactive
    rcases hrefused with hdecode | ⟨request, hdecode, hperform⟩
    · rw [hdecode]
      rfl
    · rw [hdecode]
      exact hperform
  · cases hall : Hub.orRefuse (Request.decode line) >>= exchange.hub.perform client with
    | ok outcome =>
      rw [hall, hstopped] at hanswer
      cases hanswer
    | error found =>
      rw [hall, hstopped] at hanswer
      obtain ⟨rfl, rfl⟩ : stop = found ∧ after = exchange := by simpa [concluded] using hanswer
      cases stop with
      -- An intact directory has no defect for a request to run into.
      | broken defect => exact absurd hall (request_ne_broken hintact defect)
      | refused refusal => exact ⟨rfl, refusal, rfl, handle_of_refused hintact hid hactive hall⟩
  · cases hall : Hub.orRefuse (Request.decode line) >>= exchange.hub.perform client with
    | ok outcome =>
      rw [hall, hdone] at hanswer
      obtain ⟨-, rfl⟩ := Prod.mk.inj hanswer
      exact handle_of_performed hintact hid hactive hall
    | error found =>
      rw [hall, hdone] at hanswer
      cases hanswer

/-- Two guests, of whom one asks for the nickname of the other, and then who is there. -/
theorem refused_changes_nothing_in_use : ∃ exchange : Exchange,
    exchange.hub.directory.size = 2 ∧
    exchange.outboxes[(1 : ClientId)]? = some { capacity := 1 } ∧
    exchange.handle [.line 1 "CMD:nickname:guest2:"] = exchange.updateOutbox 1
      (·.offer "error: DuplicateNickname: nickname 'guest2' is already taken") ∧
    ∃ outboxes, exchange.handle [.line 1 "CMD:users::"] = { exchange with outboxes } := by
  have run {hub hub' : Hub} {effects : List Effect} (h : Hub.Reachable {} hub) (event : Event)
      (hadmits : hub.Admits event) (hhandle : hub.handle event = .ok (hub', effects)) :
      Hub.Reachable {} hub' := .step h hadmits hhandle
  obtain ⟨hub, client, hreach, hsize, hid, hactive, hperform⟩ :
      ∃ (hub : Hub) (client : Occupant), Hub.Reachable {} hub ∧ hub.directory.size = 2 ∧
        hub.directory.occupants[(1 : ClientId)]? = some client ∧ client.isActive = true ∧
        hub.perform client (.command (.nickname "guest2")) =
          .error (.refused (.duplicateNickname "guest2")) := by
    have h₀ : Hub.Reachable {} (.start {} ⟨"general", by decide⟩) := .start rfl
    have h₁ := run h₀ (.register 1 none) (by decide) rfl
    have h₂ := run h₁ (.register 2 none) (by decide) rfl
    exact ⟨_, _, h₂, by decide, rfl, rfl, rfl⟩
  let exchange : Exchange := {
    hub
    intake := .addressed { capacity := 1 }
    orderCapacity := 1
    outboxes := (∅ : ExtTreeMap ClientId Outbox).insert 1 { capacity := 1 }
    patience := 0 }
  have hreach : Hub.Reachable {} exchange.hub := hreach
  have hid : exchange.hub.directory.occupants[(1 : ClientId)]? = some client := hid
  have hnickname : Request.decode "CMD:nickname:guest2:" = .ok (.command (.nickname "guest2")) := rfl
  have husers : Request.decode "CMD:users::" = .ok (.command .users) := rfl
  refine ⟨exchange, hsize, ExtTreeMap.getElem?_insert_self, ?_, ?_⟩
  · exact (refused_changes_nothing hreach hid hactive "CMD:nickname:guest2:").1
      (.duplicateNickname "guest2") (Or.inr ⟨_, hnickname, hperform⟩)
  · exact (refused_changes_nothing hreach hid hactive "CMD:users::").2.2.2 _ husers rfl

end

end Exchange

end ChatRooms
