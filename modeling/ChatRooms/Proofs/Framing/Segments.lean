import ChatRooms.Framing
import Mathlib.Data.List.Basic

namespace ChatRooms.Framing

variable {limit : Nat} {bytes line rest buffer piece stream segment : List UInt8}
  {pieces : List (List UInt8)} {fault : LineFault}

theorem splitLine_eq_some_iff : splitLine limit bytes = some (line, rest) ↔
    bytes = line ++ newline :: rest ∧ newline ∉ line ∧ line.length ≤ limit := by
  induction bytes generalizing limit line with
  | nil => simp [splitLine]
  | cons b bytes ih =>
    unfold splitLine
    by_cases hb : b = newline
    · -- The line is empty: a line that begins with a newline is none.
      subst hb
      rw [if_pos rfl, Option.some.injEq, Prod.mk.injEq]
      constructor
      · rintro ⟨rfl, rfl⟩
        exact ⟨rfl, List.not_mem_nil, Nat.zero_le limit⟩
      · rintro ⟨heq, hnot, -⟩
        cases line with
        | nil => exact ⟨rfl, (List.cons.inj heq).2⟩
        | cons c line => exact absurd ((List.cons.inj heq).1 ▸ List.mem_cons_self) hnot
    · rw [if_neg hb]
      cases line with
      | nil => cases limit <;> simp [hb]
      | cons c line =>
        cases limit with
        | zero => simp
        | succ limit =>
          simp only [Option.map_eq_some_iff, Prod.exists, Prod.mk.injEq, List.cons.injEq,
            List.cons_append, List.length_cons, Nat.add_le_add_iff_right, List.mem_cons, not_or]
          constructor
          · rintro ⟨line', rest', hsplit, ⟨rfl, rfl⟩, rfl⟩
            obtain ⟨rfl, hnot, hlength⟩ := ih.1 hsplit
            exact ⟨⟨rfl, rfl⟩, ⟨Ne.symm hb, hnot⟩, hlength⟩
          · rintro ⟨⟨rfl, rfl⟩, ⟨-, hnot⟩, hlength⟩
            exact ⟨line, rest, ih.2 ⟨rfl, hnot, hlength⟩, ⟨rfl, rfl⟩, rfl⟩

theorem splitLine_append (h : splitLine limit bytes = some (line, rest)) (more : List UInt8) :
    splitLine limit (bytes ++ more) = some (line, rest ++ more) := by
  obtain ⟨rfl, hnot, hlength⟩ := splitLine_eq_some_iff.1 h
  exact splitLine_eq_some_iff.2 ⟨by simp, hnot, hlength⟩

theorem splitLine_append_of_long (h : splitLine limit bytes = none) (hlong : limit < bytes.length)
    (more : List UInt8) : splitLine limit (bytes ++ more) = none := by
  rw [Option.eq_none_iff_forall_ne_some]
  rintro ⟨line, rest⟩ hsplit
  obtain ⟨heq, hnot, hlength⟩ := splitLine_eq_some_iff.1 hsplit
  have hprefix : line ++ [newline] <+: bytes := by
    have hfirst : line ++ [newline] <+: bytes ++ more :=
      ⟨rest, by rw [heq, List.append_assoc, List.singleton_append]⟩
    apply List.prefix_of_prefix_length_le hfirst (List.prefix_append bytes more)
    rw [List.length_append, List.length_singleton]
    omega
  obtain ⟨left, rfl⟩ := hprefix
  rw [splitLine_eq_some_iff.2 ⟨List.append_assoc .., hnot, hlength⟩] at h
  cases h

theorem not_mem_of_splitLine (h : splitLine limit bytes = none) (hshort : bytes.length ≤ limit) :
    newline ∉ bytes := by
  intro hmem
  obtain ⟨line, rest, rfl, hnot⟩ := List.eq_append_cons_of_mem hmem
  have hlength : line.length ≤ limit := by
    rw [List.length_append] at hshort
    omega
  rw [splitLine_eq_some_iff.2 ⟨rfl, hnot, hlength⟩] at h
  cases h

/-- What comes of reading on with the bytes that are left over. Nothing does after a fault. -/
def Reading.followedBy (reading : Reading) (next : List UInt8 → Reading) : Reading :=
  match reading.rest with
  | .error _ => reading
  | .ok buffer =>
    { lines := reading.lines ++ (next buffer).lines, rest := (next buffer).rest }

theorem readLines_of_none (h : splitLine limit bytes = none) : readLines limit bytes =
    if limit < bytes.length then { rest := .error .tooLong } else { rest := .ok bytes } := by
  rw [readLines]
  split
  next hsplit => rw [h] at hsplit; cases hsplit
  next => rfl

theorem readLines_of_some (h : splitLine limit bytes = some (line, rest)) : readLines limit bytes =
    match textOf line with
    | .error fault => { rest := .error fault }
    | .ok text =>
      { lines := text :: (readLines limit rest).lines, rest := (readLines limit rest).rest } := by
  rw [readLines]
  split
  next hsplit =>
    rw [h] at hsplit
    cases hsplit
    cases textOf line <;> rfl
  next hsplit => rw [h] at hsplit; cases hsplit

theorem readLines_append (limit : Nat) (bytes more : List UInt8) : readLines limit (bytes ++ more) =
    (readLines limit bytes).followedBy fun buffer => readLines limit (buffer ++ more) := by
  fun_induction readLines limit bytes with
  | case1 bytes line rest hsplit fault htext =>
    rw [readLines_of_some (splitLine_append hsplit more), htext]
    rfl
  | case2 bytes line rest hsplit text htext _ _ ih =>
    rw [readLines_of_some (splitLine_append hsplit more), htext, ih]
    unfold Reading.followedBy
    cases hrest : (readLines limit rest).rest with
    | error fault =>
      dsimp only
      rw [hrest]
    | ok buffer => rfl
  | case3 bytes hsplit hlong =>
    have hlong' : limit < (bytes ++ more).length := by
      rw [List.length_append]
      omega
    rw [readLines_of_none (splitLine_append_of_long hsplit hlong more), if_pos hlong']
    rfl
  | case4 bytes hsplit hshort => rfl

theorem readLines_of_rest (h : (readLines limit bytes).rest = .ok buffer) :
    readLines limit buffer = { rest := .ok buffer } := by
  fun_induction readLines limit bytes with
  | case1 => cases h
  | case2 _ _ _ _ _ _ _ _ ih => exact ih h
  | case3 => cases h
  | case4 bytes hsplit hshort =>
    cases h
    rw [readLines_of_none hsplit, if_neg hshort]

theorem readPieces_cons (limit : Nat) (buffer piece : List UInt8) (pieces : List (List UInt8)) :
    readPieces limit buffer (piece :: pieces) =
      (readLines limit (buffer ++ piece)).followedBy fun rest => readPieces limit rest pieces := by
  rw [readPieces, Reading.followedBy]
  cases hrest : (readLines limit (buffer ++ piece)).rest with
  | error fault =>
    dsimp only
    rw [← hrest]
  | ok rest => rfl

theorem readPieces_eq_readLines (h : readLines limit buffer = { rest := .ok buffer })
    (pieces : List (List UInt8)) :
    readPieces limit buffer pieces = readLines limit (buffer ++ pieces.flatten) := by
  induction pieces generalizing buffer with
  | nil => rw [readPieces, List.flatten_nil, List.append_nil, h]
  | cons piece pieces ih =>
    rw [readPieces_cons, List.flatten_cons, ← List.append_assoc,
      readLines_append limit (buffer ++ piece)]
    unfold Reading.followedBy
    cases hrest : (readLines limit (buffer ++ piece)).rest with
    | error fault => rfl
    | ok rest =>
      dsimp only
      rw [ih (readLines_of_rest hrest)]

theorem readPieces_nil_eq (limit : Nat) (pieces : List (List UInt8)) :
    readPieces limit [] pieces = readLines limit pieces.flatten := by
  have hnothing : readLines limit [] = { rest := .ok [] } := by
    rw [readLines_of_none (by rw [splitLine])]
    exact if_neg (Nat.not_lt_zero limit)
  rw [readPieces_eq_readLines hnothing, List.nil_append]

/-- Whether what follows the last newline is a segment too. -/
def isSegment (rest : List UInt8) : Bool :=
  rest ≠ [] && rest ≠ [carriageReturn]

/-- What stands between the newlines of a stream, and before the first of them. -/
def segments (stream : List UInt8) : List (List UInt8) :=
  let parts := stream.splitOn newline
  parts.dropLast ++ (parts.getLast?.filter isSegment).toList

/-- The line that a segment holds, without the carriage return at its end. -/
def lineOf (limit : Nat) (segment : List UInt8) : Except LineFault String :=
  if limit < segment.length then .error .tooLong
  else
    let bytes :=
      if segment.getLast? = some carriageReturn then segment.dropLast else segment
    match String.fromUTF8? (ByteArray.mk bytes.toArray) with
    | some line => .ok line
    | none => .error .notUnicode

/-- The lines of the segments before the first that is no line, and what is wrong with that one. -/
def linesOf (limit : Nat) : List (List UInt8) → List String × Except LineFault Unit
  | [] => ([], .ok ())
  | segment :: segments =>
    match lineOf limit segment with
    | .error fault => ([], .error fault)
    | .ok line => (line :: (linesOf limit segments).1, (linesOf limit segments).2)

theorem dropReturn_eq (segment : List UInt8) : dropReturn segment =
    if segment.getLast? = some carriageReturn then segment.dropLast else segment := by
  fun_induction dropReturn segment with
  | case1 => rfl
  | case2 => rfl
  | case3 b hb => simp [hb]
  | case4 b rest hrest ih =>
    obtain ⟨c, rest, rfl⟩ := List.exists_cons_of_ne_nil hrest
    rw [ih, List.getLast?_cons_cons]
    split <;> rfl

theorem lineOf_eq_textOf (h : segment.length ≤ limit) : lineOf limit segment = textOf segment := by
  unfold textOf
  rw [dropReturn_eq]
  exact if_neg (Nat.not_lt.2 h)

theorem segments_append_cons (h : newline ∉ line) (rest : List UInt8) :
    segments (line ++ newline :: rest) = line :: segments rest := by
  have hparts : rest.splitOn newline ≠ [] := List.splitOn_ne_nil newline rest
  rw [segments, List.splitOn_append_cons_self_of_not_mem h, List.dropLast_cons_of_ne_nil hparts,
    List.getLast?_cons_of_ne_nil hparts]
  rfl

theorem segments_of_not_mem (h : newline ∉ bytes) :
    segments bytes = if isSegment bytes then [bytes] else [] := by
  rw [segments, List.splitOn_eq_singleton h]
  cases hsegment : isSegment bytes <;> simp [Option.filter, hsegment]

/-- What a reading comes to when the input is over. -/
def Reading.finished (reading : Reading) : List String × Except LineFault Unit :=
  match reading.rest with
  | .error fault => (reading.lines, .error fault)
  | .ok bytes =>
    match lastLine bytes with
    | .error fault => (reading.lines, .error fault)
    | .ok none => (reading.lines, .ok ())
    | .ok (some text) => (reading.lines ++ [text], .ok ())

theorem readAll_eq_finished (limit : Nat) (pieces : List (List UInt8)) :
    readAll limit pieces = (readLines limit pieces.flatten).finished := by
  rw [← readPieces_nil_eq]
  rfl

theorem finished_cons (text : String) (reading : Reading) :
    Reading.finished { lines := text :: reading.lines, rest := reading.rest } =
      (text :: reading.finished.1, reading.finished.2) := by
  unfold Reading.finished
  cases reading.rest with
  | error fault => rfl
  | ok bytes =>
    dsimp only
    split <;> rfl

theorem finished_of_rest (hlength : bytes.length ≤ limit) (hnot : newline ∉ bytes) :
    Reading.finished { rest := .ok bytes } = linesOf limit (segments bytes) := by
  rw [segments_of_not_mem hnot]
  unfold Reading.finished lastLine
  dsimp only
  by_cases hsegment : bytes = [] ∨ bytes = [carriageReturn]
  · have hnone : isSegment bytes = false := by
      rcases hsegment with rfl | rfl <;> rfl
    rw [if_pos hsegment, hnone]
    rfl
  · have hsome : isSegment bytes = true := by
      rw [not_or] at hsegment
      simp [isSegment, hsegment]
    rw [if_neg hsegment, hsome, if_pos rfl, linesOf, lineOf_eq_textOf hlength]
    cases textOf bytes <;> rfl

theorem linesOf_of_long (hsplit : splitLine limit stream = none) (hlong : limit < stream.length)
    (hlimit : 0 < limit) : linesOf limit (segments stream) = ([], .error .tooLong) := by
  have htooLong {segment : List UInt8} {rest : List (List UInt8)} (h : limit < segment.length) :
      linesOf limit (segment :: rest) = ([], .error .tooLong) := by
    rw [linesOf, lineOf, if_pos h]
  by_cases hmem : newline ∈ stream
  · obtain ⟨line, rest, rfl, hnot⟩ := List.eq_append_cons_of_mem hmem
    rw [segments_append_cons hnot]
    apply htooLong
    by_contra hshort
    rw [splitLine_eq_some_iff.2 ⟨rfl, hnot, Nat.not_lt.1 hshort⟩] at hsplit
    cases hsplit
  · have hsegment : isSegment stream = true := by
      have hne : stream ≠ [] := List.ne_nil_of_length_pos (Nat.zero_lt_of_lt hlong)
      have hne' : stream ≠ [carriageReturn] := by
        rintro rfl
        exact absurd hlong (Nat.not_lt.2 hlimit)
      simp [isSegment, hne, hne']
    rw [segments_of_not_mem hmem, if_pos hsegment]
    exact htooLong hlong

theorem finished_readLines (hlimit : 0 < limit) :
    (readLines limit stream).finished = linesOf limit (segments stream) := by
  have hrest {stream line rest : List UInt8} (hsplit : splitLine limit stream = some (line, rest)) :
      segments stream = line :: segments rest ∧ lineOf limit line = textOf line := by
    obtain ⟨rfl, hnot, hlength⟩ := splitLine_eq_some_iff.1 hsplit
    exact ⟨segments_append_cons hnot rest, lineOf_eq_textOf hlength⟩
  fun_induction readLines limit stream with
  | case1 stream line rest hsplit fault htext =>
    obtain ⟨hsegments, hline⟩ := hrest hsplit
    rw [hsegments, linesOf, hline, htext]
    rfl
  | case2 stream line rest hsplit text htext _ _ ih =>
    obtain ⟨hsegments, hline⟩ := hrest hsplit
    rw [hsegments, linesOf, hline, htext]
    exact (finished_cons text _).trans (by rw [ih])
  | case3 stream hsplit hlong => rw [linesOf_of_long hsplit hlong hlimit]; rfl
  | case4 stream hsplit hshort =>
    have hlength := Nat.not_lt.1 hshort
    exact finished_of_rest hlength (not_mem_of_splitLine hsplit hlength)

/-- How the reading ends, given the segments that are left when it stops. -/
def endingAt (limit : Nat) : List (List UInt8) → Except LineFault Unit
  | [] => .ok ()
  | segment :: _ => (lineOf limit segment).map fun _ => ()

/-- The segments before the first that is no line are all lines, and that one is none. -/
theorem exists_of_linesOf (limit : Nat) (segments : List (List UInt8)) :
    ∃ passed left, segments = passed ++ left ∧
      passed.map (lineOf limit) = (linesOf limit segments).1.map Except.ok ∧
      (linesOf limit segments).2 = endingAt limit left ∧
      ∀ segment ∈ left.head?, ∃ fault, lineOf limit segment = .error fault := by
  induction segments with
  | nil => exact ⟨[], [], rfl, rfl, rfl, nofun⟩
  | cons segment segments ih =>
    rw [linesOf]
    cases hline : lineOf limit segment with
    | error fault =>
      refine ⟨[], segment :: segments, rfl, rfl, ?_, ?_⟩
      · rw [endingAt, hline]
        rfl
      · rintro _ ⟨⟩
        exact ⟨fault, hline⟩
    | ok line =>
      obtain ⟨passed, left, rfl, hpassed, hleft, hhead⟩ := ih
      refine ⟨segment :: passed, left, rfl, ?_, hleft, hhead⟩
      rw [List.map_cons, hpassed, hline]
      rfl

end ChatRooms.Framing
