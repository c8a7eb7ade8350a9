import Mathlib.Data.List.ReduceOption
import ChatRooms.Proofs.Settings.Assignments

namespace ChatRooms.Settings

open Json

def Padded (IsText : List Char → Prop) (text : List Char) : Prop :=
  ∃ before written after, text = before ++ (written ++ after) ∧ IsGap before ∧ IsText written ∧
    IsGap after

/-- A member of an object: a name in quotes, a colon and a value, with blanks between any of them. -/
def Named (name : List Char) (IsText : List Char → Prop) (text : List Char) : Prop :=
  ∃ before spelled after value, text = before ++ '"' :: (spelled ++ '"' :: (after ++ ':' :: value)) ∧
    IsGap before ∧ WritesString spelled name ∧ IsGap after ∧ Padded IsText value

/-- What a member gives: a value for the field of its name, or nothing if no field has that name. Then
its value may be any value at all. -/
inductive Gives : List Char → Option Assignment → Prop where
  | field {field : Field} {value : field.kind.Value} {text : List Char}
      (h : Named field.key.toList (field.kind.Writes · value) text) : Gives text (some ⟨field, value⟩)
  | nothing {name text : List Char} (hname : Field.ofKey? name = none) (h : Named name IsValue text) :
      Gives text none

/-- Items between brackets, with commas between them and blanks around the whole. -/
def Encloses (bracket : Bracket) (items : List (List Char)) (text : List Char) : Prop :=
  ∃ before gap after, text = before ++ bracket.opening ::
      (gap ++ ([','].intercalate items ++ bracket.closing :: after)) ∧
    IsGap before ∧ IsGap gap ∧ IsGap after

/-- An object that gives values to fields, in the order in which it names them. -/
def WritesObject (text : List Char) (assignments : List Assignment) : Prop :=
  ∃ items given, Encloses .object items text ∧ List.Forall₂ Gives items given ∧
    given.reduceOption = assignments

/-- An element of an array, which says nothing of the field that its value is for. -/
def Holds (item : List Char) (assignment : Assignment) : Prop :=
  Padded (assignment.1.kind.Writes · assignment.2) item

def WritesArray (text : List Char) (assignments : List Assignment) : Prop :=
  ∃ items, Encloses .array items text ∧ List.Forall₂ Holds items assignments

/-- An object that goes well, with any values, up to where it names a field for the second time. -/
def NamesTwice (text : List Char) : Prop :=
  ∃ (before : List Char) (items names : List (List Char)) (field : Field)
    (gap spelled rest : List Char),
    text = before ++ '\x7b' :: ([','].intercalate items ++
      ',' :: (gap ++ '"' :: (spelled ++ '"' :: rest))) ∧
    IsGap before ∧ List.Forall₂ (fun item name => Named name IsValue item) items names ∧
    field.key.toList ∈ names ∧ IsGap gap ∧ WritesString spelled field.key.toList

variable {text rest gap name item : List Char} {items : List (List Char)}
  {IsText : List Char → Prop} {seen : List Field} {settings : Settings} {field : Field}
  {assignment : Assignment} {assignments : List Assignment} {n : Nat}

theorem intercalate_cons (item : List Char) (items : List (List Char)) :
    [','].intercalate (item :: items) = item ++ items.flatMap (',' :: ·) := by
  induction items generalizing item with
  | nil => simp [List.intercalate]
  | cons next items ih =>
    rw [List.flatMap_cons, List.cons_append, ← ih next]
    simp [List.intercalate]

theorem length_le_length_flatMap (items : List (List Char)) :
    items.length ≤ (items.flatMap (',' :: ·)).length := by
  induction items with
  | nil => exact Nat.le_refl 0
  | cons item items ih =>
    simp only [List.flatMap_cons, List.length_append, List.length_cons]
    omega

theorem endsNumber_flatMap (items : List (List Char)) (hrest : EndsNumber rest) :
    EndsNumber (items.flatMap (',' :: ·) ++ rest) := by
  cases items with
  | nil => exact hrest
  | cons item items => exact endsNumber_comma _

theorem readMembers_congr {first : Bool} {text' : List Char}
    (h : skipBlanks text = skipBlanks text') :
    readMembers first seen settings n text = readMembers first seen settings n text' := by
  cases n with
  | zero => rfl
  | succ n => rw [readMembers, readMembers, nextMember, nextMember, h]

theorem readMembers_first (h : skipBlanks text = '"' :: rest) :
    readMembers true seen settings n text = readMembers false seen settings n (',' :: text) := by
  cases n with
  | zero => rfl
  | succ n =>
    have hname : readName ('"' :: rest) = readName text := by rw [readName, readName, h]; rfl
    have hnext : nextMember true text = nextMember false (',' :: text) := by
      rw [nextMember, h]
      show nextMember.named ('"' :: rest) = _
      rw [nextMember.named, hname]
      rfl
    rw [readMembers, readMembers, hnext]

theorem nextMember_comma {spelled : List Char} (hgap : IsGap gap) (hspelled : WritesString spelled name)
    (rest : List Char) :
    nextMember false (',' :: (gap ++ '"' :: (spelled ++ '"' :: rest))) = .ok (some name, rest) := by
  show nextMember.named _ = _
  rw [nextMember.named, readName_append hgap hspelled]
  rfl

theorem readMember_of_field {after : List Char} (hname : Field.ofKey? name = some field)
    (hnew : field ∉ seen) (hafter : IsGap after) :
    readMember seen settings name (after ++ ':' :: text) =
      (field.read settings text).map fun (settings, rest) => (field :: seen, settings, rest) := by
  rw [readMember, hname]
  dsimp only
  rw [if_neg hnew, readColon_append hafter]
  simp only [bind, Except.bind]
  cases field.read settings text <;> rfl

theorem readMember_of_seen (hname : Field.ofKey? name = some field) (hseen : field ∈ seen) :
    readMember seen settings name text = .error .mistyped := by
  rw [readMember, hname]
  exact if_pos hseen

theorem readMember_of_other {after : List Char} (hname : Field.ofKey? name = none)
    (hafter : IsGap after) :
    readMember seen settings name (after ++ ':' :: text) =
      (skipValue text).map fun rest => (seen, settings, rest) := by
  rw [readMember, hname]
  dsimp only
  rw [readColon_append hafter]
  simp only [bind, Except.bind]
  cases skipValue text <;> rfl

theorem Named.exists_head (h : Named name IsText item) (rest : List Char) :
    ∃ more, skipBlanks (item ++ rest) = '"' :: more := by
  obtain ⟨before, spelled, after, value, rfl, hbefore, -⟩ := h
  rw [List.append_assoc, skipBlanks_append hbefore]
  exact ⟨_, skipBlanks_cons rfl _⟩

/-- A member is read by its name; what stands between the name and the value's end is all its value's. -/
theorem readMembers_of_named (h : Named name IsText item) :
    ∃ after before written after', IsGap after ∧ IsGap before ∧ IsText written ∧ IsGap after' ∧
      ∀ seen settings n rest, readMembers false seen settings (n + 1) (',' :: (item ++ rest)) = (do
        let (seen, settings, rest) ← readMember seen settings name
          (after ++ ':' :: (before ++ (written ++ (after' ++ rest))))
        readMembers false seen settings n rest) := by
  obtain ⟨gap, spelled, after, value, rfl, hgap, hspelled, hafter, before, written, after', rfl, hbefore,
    hwritten, hafter'⟩ := h
  refine ⟨after, before, written, after', hafter, hbefore, hwritten, hafter', ?_⟩
  intro seen settings n rest
  simp only [List.append_assoc, List.cons_append]
  rw [readMembers, nextMember_comma hgap hspelled]
  rfl

/-- One member: what it gives has its place from then on, and its field is seen. -/
theorem readMembers_of_gives {given : Option Assignment} (h : Gives item given)
    (hrest : EndsNumber rest) (hnew : ∀ assignment ∈ given, assignment.1 ∉ seen) :
    readMembers false seen settings (n + 1) (',' :: (item ++ rest)) =
      readMembers false ((given.map Sigma.fst).toList ++ seen) (settings.assign given.toList) n
        rest := by
  cases h with
  | field h =>
    obtain ⟨after, before, written, after', hafter, hbefore, hwritten, hafter', hread⟩ :=
      readMembers_of_named h
    rw [hread, readMember_of_field (Field.ofKey?_key _) (hnew _ rfl) hafter, Field.read_eq,
      hwritten.read_append hbefore (.blanks hafter' hrest)]
    exact readMembers_congr (skipBlanks_append hafter' rest)
  | nothing hname h =>
    obtain ⟨after, before, written, after', hafter, hbefore, hwritten, hafter', hread⟩ :=
      readMembers_of_named h
    rw [hread, readMember_of_other hname hafter,
      skipValue_append hbefore hwritten (.blanks hafter' hrest)]
    exact readMembers_congr (skipBlanks_append hafter' rest)

theorem readMembers_series {given : List (Option Assignment)} (h : List.Forall₂ Gives items given)
    (hnodup : (given.reduceOption.map Sigma.fst).Nodup)
    (hnew : ∀ assignment ∈ given.reduceOption, assignment.1 ∉ seen) (hn : items.length < n) :
    readMembers false seen settings n (items.flatMap (',' :: ·) ++ '\x7d' :: rest) =
      .ok (settings.assign given.reduceOption, rest) := by
  induction h generalizing seen settings n with
  | nil =>
    obtain ⟨n, rfl⟩ := Nat.exists_eq_add_one_of_ne_zero (Nat.ne_of_gt hn)
    rfl
  | @cons item given items more hitem _ ih =>
    obtain ⟨n, rfl⟩ := Nat.exists_eq_add_one_of_ne_zero (Nat.ne_of_gt (Nat.zero_lt_of_lt hn))
    have hends : EndsNumber (items.flatMap (',' :: ·) ++ '\x7d' :: rest) :=
      endsNumber_flatMap items (endsNumber_closing .object rest)
    simp only [List.flatMap_cons, List.cons_append, List.append_assoc]
    have hstep (hnew : ∀ assignment ∈ given, assignment.1 ∉ seen) :=
      @readMembers_of_gives _ _ seen settings n _ hitem hends hnew
    cases given with
    | none =>
      rw [List.reduceOption_cons_of_none] at hnodup hnew ⊢
      rw [hstep nofun]
      exact ih hnodup hnew (Nat.lt_of_succ_lt_succ hn)
    | some assignment =>
      rw [List.reduceOption_cons_of_some] at hnodup hnew ⊢
      rw [List.map_cons, List.nodup_cons] at hnodup
      rw [List.forall_mem_cons] at hnew
      rw [hstep (by rintro _ ⟨⟩; exact hnew.1)]
      -- The members that are left name neither what was seen before nor what has just been read.
      refine ih hnodup.2 (fun other hother => ?_) (Nat.lt_of_succ_lt_succ hn)
      refine List.not_mem_cons_of_ne_of_not_mem (fun heq => hnodup.1 ?_) (hnew.2 other hother)
      exact heq ▸ List.mem_map_of_mem hother

theorem readMembers_enclosed (hgap : IsGap gap) (h : Named name IsText item) :
    readMembers true seen settings n (gap ++ ([','].intercalate (item :: items) ++ rest)) =
      readMembers false seen settings n ((item :: items).flatMap (',' :: ·) ++ rest) := by
  obtain ⟨more, hmore⟩ := h.exists_head (items.flatMap (',' :: ·) ++ rest)
  rw [readMembers_congr (skipBlanks_append hgap _), intercalate_cons, List.append_assoc,
    readMembers_first hmore, List.flatMap_cons, List.append_assoc, List.cons_append]

theorem readMembers_object {given : List (Option Assignment)} (h : List.Forall₂ Gives items given)
    (hnodup : (given.reduceOption.map Sigma.fst).Nodup) (hgap : IsGap gap)
    (hn : (gap ++ ([','].intercalate items ++ '\x7d' :: rest)).length < n) :
    readMembers true [] {} n (gap ++ ([','].intercalate items ++ '\x7d' :: rest)) =
      .ok (assign {} given.reduceOption, rest) := by
  cases h with
  | nil =>
    obtain ⟨n, rfl⟩ := Nat.exists_eq_add_one_of_ne_zero (Nat.ne_of_gt (Nat.zero_lt_of_lt hn))
    rw [readMembers_congr (skipBlanks_append hgap _)]
    rfl
  | @cons item given items more hitem hitems =>
    have hlength : (item :: items).length < n := by
      have := length_le_length_flatMap items
      simp only [intercalate_cons, List.length_append, List.length_cons] at hn ⊢
      omega
    have hseries := @readMembers_series rest _ [] {} _ _ (.cons hitem hitems) hnodup nofun hlength
    cases hitem with
    | field h => rw [readMembers_enclosed hgap h, hseries]
    | nothing _ h => rw [readMembers_enclosed hgap h, hseries]

/-- Whatever a member holds, reading stops there, or goes on after it with its field seen. -/
theorem readMembers_of_any (h : Named name IsValue item) (hrest : EndsNumber rest) :
    (∃ flaw, readMembers false seen settings (n + 1) (',' :: (item ++ rest)) = .error flaw) ∨
      ∃ settings', readMembers false seen settings (n + 1) (',' :: (item ++ rest)) =
        readMembers false ((Field.ofKey? name).toList ++ seen) settings' n rest := by
  cases hname : Field.ofKey? name with
  | none => exact .inr ⟨settings, readMembers_of_gives (.nothing hname h) hrest nofun⟩
  | some field =>
    obtain ⟨after, before, written, after', hafter, hbefore, hwritten, hafter', hread⟩ :=
      readMembers_of_named h
    by_cases hseen : field ∈ seen
    · rw [hread, readMember_of_seen hname hseen]
      exact .inl ⟨_, rfl⟩
    rw [hread, readMember_of_field hname hseen hafter, Field.read_eq]
    cases hvalue : field.kind.read (before ++ (written ++ (after' ++ rest))) with
    | error flaw => exact .inl ⟨flaw, rfl⟩
    | ok found =>
      -- What was read is as long as the value, so the next member starts where reading goes on.
      obtain ⟨value, left⟩ := found
      have hskip := Kind.skipValue_of_read hvalue
      rw [skipValue_append hbefore hwritten (.blanks hafter' hrest)] at hskip
      obtain rfl := Except.ok.inj hskip
      refine .inr ⟨field.set settings value, ?_⟩
      exact readMembers_congr (skipBlanks_append hafter' rest)

/-- By induction on the members before the second name: the field is seen, or one of them names it. -/
theorem readMembers_of_twice {names : List (List Char)} {spelled : List Char}
    (h : List.Forall₂ (fun item name => Named name IsValue item) items names) (hgap : IsGap gap)
    (hspelled : WritesString spelled field.key.toList)
    (hfield : field ∈ seen ∨ field.key.toList ∈ names) :
    ∃ flaw, readMembers false seen settings n (items.flatMap (',' :: ·) ++
      ',' :: (gap ++ '"' :: (spelled ++ '"' :: rest))) = .error flaw := by
  induction h generalizing seen settings n with
  | nil =>
    have hseen : field ∈ seen := hfield.resolve_right List.not_mem_nil
    cases n with
    | zero => exact ⟨_, rfl⟩
    | succ n =>
      refine ⟨.mistyped, ?_⟩
      rw [List.flatMap_nil, List.nil_append, readMembers, nextMember_comma hgap hspelled]
      simp only [bind, Except.bind, readMember_of_seen (Field.ofKey?_key field) hseen]
  | @cons item name items names hitem _ ih =>
    cases n with
    | zero => exact ⟨_, rfl⟩
    | succ n =>
      simp only [List.flatMap_cons, List.cons_append, List.append_assoc]
      rcases readMembers_of_any hitem (endsNumber_flatMap items (endsNumber_comma _)) with
        herror | ⟨settings', hnext⟩
      · exact herror
      rw [hnext]
      refine ih ?_
      rw [List.mem_append, Option.mem_toList]
      rcases hfield with hseen | hmem
      · exact .inl (.inr hseen)
      rcases List.mem_cons.1 hmem with rfl | hmem
      · exact .inl (.inl (Field.ofKey?_key field))
      · exact .inr hmem

variable {fields : List Field}

theorem readElements_congr {first : Bool} {text' : List Char}
    (h : skipBlanks text = skipBlanks text') :
    readElements first settings fields text = readElements first settings fields text' := by
  cases fields with
  | nil => rw [readElements, readElements, h]
  | cons => rw [readElements, readElements, nextElement, nextElement, h]

theorem nextElement_first {c : Char} (h : skipBlanks text = c :: rest) (hc : c ≠ ']') :
    nextElement true text = .ok (true, c :: rest) ∧
      nextElement false (',' :: text) = .ok (true, c :: rest) := by
  have hcomma : skipBlanks (',' :: text) = ',' :: text := skipBlanks_cons rfl text
  constructor
  · simp [nextElement, h]
  · simp [nextElement, hcomma, h, hc]

/-- An element does not look like the end of the array, and it is read up to its blanks. -/
theorem Holds.exists_head (h : Holds item assignment) (rest : List Char) :
    ∃ c more after, skipBlanks (item ++ rest) = c :: more ∧ c ≠ ']' ∧ IsGap after ∧
      (EndsNumber rest →
        assignment.1.kind.read (c :: more) = .ok (assignment.2, after ++ rest)) := by
  obtain ⟨before, written, after, rfl, hbefore, hwritten, hafter⟩ := h
  obtain ⟨c, more, rfl, hblank, hc⟩ := hwritten.isValue.exists_cons
  refine ⟨c, more ++ (after ++ rest), after, ?_, hc, hafter, fun hrest => ?_⟩
  · rw [List.append_assoc, skipBlanks_append hbefore, List.append_assoc, List.cons_append]
    exact skipBlanks_cons hblank _
  · exact hwritten.read_append .nil (.blanks hafter hrest)

theorem readElements_first (h : Holds item assignment) :
    readElements true settings (field :: fields) (item ++ rest) =
      readElements false settings (field :: fields) (',' :: (item ++ rest)) := by
  obtain ⟨c, more, -, hhead, hc, -⟩ := h.exists_head rest
  obtain ⟨hfirst, hnext⟩ := nextElement_first hhead hc
  rw [readElements, readElements, hfirst, hnext]

theorem readElements_of_holds (h : Holds item assignment) (hrest : EndsNumber rest) :
    readElements false settings (assignment.1 :: fields) (',' :: (item ++ rest)) =
      readElements false (assignment.1.set settings assignment.2) fields rest := by
  obtain ⟨c, more, after, hhead, hc, hafter, hread⟩ := h.exists_head rest
  rw [readElements, (nextElement_first hhead hc).2]
  show (assignment.1.read settings (c :: more) >>= fun read =>
    readElements false read.1 fields read.2) = _
  rw [Field.read_eq, hread hrest]
  exact readElements_congr (skipBlanks_append hafter rest)

theorem readElements_series (h : List.Forall₂ Holds items assignments) :
    readElements false settings (assignments.map Sigma.fst ++ fields)
      (items.flatMap (',' :: ·) ++ ']' :: rest) = .ok (settings.assign assignments, rest) := by
  induction h generalizing settings with
  | nil => cases fields <;> rfl
  | @cons item assignment items assignments hitem _ ih =>
    simp only [List.flatMap_cons, List.cons_append, List.append_assoc, List.map_cons]
    have hends : EndsNumber (items.flatMap (',' :: ·) ++ ']' :: rest) :=
      endsNumber_flatMap items (endsNumber_closing .array rest)
    rw [readElements_of_holds hitem hends]
    exact ih

theorem readElements_array (h : List.Forall₂ Holds items assignments) (hgap : IsGap gap) :
    readElements true {} (assignments.map Sigma.fst ++ fields)
      (gap ++ ([','].intercalate items ++ ']' :: rest)) = .ok (assign {} assignments, rest) := by
  rw [readElements_congr (skipBlanks_append hgap _)]
  cases h with
  | nil => cases fields <;> rfl
  | @cons item assignment items assignments hitem hitems =>
    have hseries := @readElements_series rest _ {} _ fields (.cons hitem hitems)
    simp only [List.flatMap_cons, List.cons_append, List.append_assoc, List.map_cons] at hseries
    rw [intercalate_cons, List.append_assoc, List.map_cons, List.cons_append, readElements_first hitem]
    exact hseries

theorem readJson_of_readValue {text : String} (h : readValue text.toList = .ok (settings, rest))
    (hrest : IsGap rest) : readJson text = .ok settings := by
  have hend : skipBlanks rest = [] := List.dropWhile_eq_nil_iff.2 hrest
  rw [readJson, h]
  simp only [bind, Except.bind, hend]
  rfl

theorem readJson_of_object {text : String} (h : WritesObject text.toList assignments)
    (hnodup : (assignments.map Sigma.fst).Nodup) : readJson text = .ok (assign {} assignments) := by
  obtain ⟨items, given, ⟨before, gap, after, htext, hbefore, hgap, hafter⟩, hitems, rfl⟩ := h
  refine readJson_of_readValue ?_ hafter
  rw [htext, readValue, skipBlanks_append hbefore]
  exact readMembers_object hitems hnodup hgap (Nat.lt_succ_self _)

theorem readJson_of_array {text : String} {k : Nat} (h : WritesArray text.toList assignments)
    (hfields : assignments.map Sigma.fst = Field.all.take k) :
    readJson text = .ok (assign {} assignments) := by
  obtain ⟨items, ⟨before, gap, after, htext, hbefore, hgap, hafter⟩, hitems⟩ := h
  refine readJson_of_readValue ?_ hafter
  -- Reading means to go through all fields, and the closing bracket stops it early.
  have hall : Field.all = assignments.map Sigma.fst ++ Field.all.drop k := by
    rw [hfields, List.take_append_drop]
  rw [htext, readValue, skipBlanks_append hbefore]
  show readElements true {} Field.all _ = _
  rw [hall]
  exact readElements_array hitems hgap

theorem readJson_of_twice {text : String} (h : NamesTwice text.toList) :
    ∃ flaw, readJson text = .error flaw := by
  obtain ⟨before, items, names, field, gap, spelled, rest, htext, hbefore, hitems, hfield, hgap,
    hspelled⟩ := h
  have hvalue : ∃ flaw, readValue text.toList = .error flaw := by
    rw [htext, readValue, skipBlanks_append hbefore]
    cases hitems with
    | nil => cases hfield
    | cons hitem hitems =>
      have htwice (n : Nat) := @readMembers_of_twice rest _ _ [] {} field n _ _ (.cons hitem hitems) hgap
        hspelled (.inr hfield)
      exact (htwice _).imp fun _ h => (readMembers_enclosed .nil hitem).trans h
  obtain ⟨flaw, hflaw⟩ := hvalue
  refine ⟨flaw, ?_⟩
  rw [readJson, hflaw]
  rfl

/-- An object gives the default settings with what it assigns in place, if a server can run with them,
and the first fault otherwise; a field named twice is always a flaw; and an array of the first fields'
values gives what any object of the same fields gives. -/
theorem ofJson_of_document :
    (∀ (text : String) (assignments : List Assignment), WritesObject text.toList assignments →
      (assignments.map Sigma.fst).Nodup →
      ∃ settings, Replaces assignments settings ∧ ofJson text = settings.verdict) ∧
    (∀ text : String, NamesTwice text.toList → ∃ flaw, ofJson text = .error (.json flaw)) ∧
    ∀ (array object : String) (k : Nat) (values assignments : List Assignment),
      WritesArray array.toList values → values.map Sigma.fst = Field.all.take k →
      WritesObject object.toList assignments → assignments.Perm values → ofJson array = ofJson object := by
  refine ⟨fun text assignments hobject hnodup => ?_, fun text htwice => ?_, ?_⟩
  · exact ⟨_, replaces_assign hnodup, ofJson_of_readJson (readJson_of_object hobject hnodup)⟩
  · obtain ⟨flaw, hflaw⟩ := readJson_of_twice htwice
    refine ⟨flaw, ?_⟩
    rw [ofJson, hflaw]
  · intro array object k values assignments harray hfields hobject hperm
    have hvalues : (values.map Sigma.fst).Nodup := by
      rw [hfields]
      exact List.Nodup.sublist (List.take_sublist k _) (by decide)
    have hnodup : (assignments.map Sigma.fst).Nodup := (hperm.map Sigma.fst).nodup_iff.2 hvalues
    have hsame := ((replaces_assign hnodup).perm hperm).unique (replaces_assign hvalues)
    rw [ofJson_of_readJson (readJson_of_array harray hfields),
      ofJson_of_readJson (readJson_of_object hobject hnodup), hsame]

/-- The port comes before the host, its name has an escape in it, and something else comes first. -/
theorem ofJson_of_document_out_of_order :
    let object := "\x7b\"x\":[\x7b\x7d],\"p\\u006frt\": 9,\"bind_host\":\"h\"\x7d"
    let given : List Assignment := [⟨.port, (9 : Nat)⟩, ⟨.bindHost, ("h" : String)⟩]
    (∃ settings, Replaces given settings ∧ ofJson object = settings.verdict) ∧
      (∃ flaw, ofJson "\x7b\"port\":9,\"port\"" = .error (.json flaw)) ∧
      ofJson "[\"h\",9]" = ofJson object := by
  intro object given
  have hport : (Field.port.kind).Writes ['9'] (9 : Nat) :=
    .natural ⟨⟨nofun, List.forall_mem_singleton.2 rfl⟩, by decide⟩ (by decide)
  have hh : WritesString ['h'] ['h'] := writesString_self (by decide)
  have hx : WritesString ['x'] ['x'] := writesString_self (by decide)
  have hbind : WritesString "bind_host".toList "bind_host".toList := writesString_self (by decide)
  have hplain : WritesString "port".toList "port".toList := writesString_self (by decide)
  have hrt : WritesString ['r', 't'] ['r', 't'] := writesString_self (by decide)
  have ho : WritesUnit ['0', '0', '6', 'f'] (((0 * 16 + 0) * 16 + 6) * 16 + 15) :=
    .digits rfl rfl rfl rfl
  have hescaped : WritesString "p\\u006frt".toList "port".toList :=
    .cons (.plain (by decide)) (.cons (@WritesChar.unit _ 'o' ho) hrt)
  have hhost : Kind.text.Writes ['"', 'h', '"'] "h" := @Kind.Writes.text ['h'] "h" hh
  have hnested : IsValue "[\x7b\x7d]".toList :=
    @Derives.bracket .array _ (.one .array .nil (@Derives.empty .object _ .nil) .nil)
  have hgap : IsGap [' '] := List.forall_mem_singleton.2 rfl
  have hobject : WritesObject object.toList given :=
    ⟨["\"x\":[\x7b\x7d]".toList, "\"p\\u006frt\": 9".toList, "\"bind_host\":\"h\"".toList],
      [none, some ⟨.port, (9 : Nat)⟩, some ⟨.bindHost, ("h" : String)⟩],
      ⟨[], [], [], by decide, .nil, .nil, .nil⟩,
      .cons (.nothing rfl ⟨[], ['x'], [], _, rfl, .nil, hx, .nil, [], _, [], rfl, .nil, hnested, .nil⟩)
        (.cons (.field ⟨[], _, [], _, rfl, .nil, hescaped, .nil, [' '], _, [], rfl, hgap, hport, .nil⟩)
          (.cons (.field ⟨[], _, [], _, rfl, .nil, hbind, .nil, [], _, [], rfl, .nil, hhost, .nil⟩)
            .nil)), rfl⟩
  have htwice : NamesTwice "\x7b\"port\":9,\"port\"".toList :=
    ⟨[], ["\"port\":9".toList], ["port".toList], .port, [], _, [], rfl, .nil,
      .cons ⟨[], _, [], _, rfl, .nil, hplain, .nil, [], _, [], rfl, .nil, hport.isValue, .nil⟩ .nil,
      List.mem_singleton.2 rfl, .nil, hplain⟩
  have harray : WritesArray "[\"h\",9]".toList given.reverse :=
    ⟨["\"h\"".toList, ['9']], ⟨[], [], [], rfl, .nil, .nil, .nil⟩,
      .cons ⟨[], _, [], rfl, .nil, hhost, .nil⟩ (.cons ⟨[], _, [], rfl, .nil, hport, .nil⟩ .nil)⟩
  obtain ⟨hreads, hrefuses, hagrees⟩ := ofJson_of_document
  exact ⟨hreads object given hobject (by decide), hrefuses _ htwice,
    hagrees _ object 2 given.reverse given harray rfl hobject (List.reverse_perm given).symm⟩

end ChatRooms.Settings
