import ChatRooms.Proofs.Notice.Wording

namespace ChatRooms

namespace Frame

variable {line tag arg1 arg2 body field core : List Char} {content : Option (List Char)}

theorem subset_of_carries (h : Text.Carries field core) : core ⊆ field := by
  obtain ⟨-, before, after, -, -, rfl⟩ := h
  exact fun c hc => List.mem_append_left _ (List.mem_append_right _ hc)

theorem Writes.subset (h : Writes line tag arg1 arg2 body) :
    tag ⊆ line ∧ arg1 ⊆ line ∧ arg2 ⊆ line ∧ body ⊆ line := by
  obtain ⟨field, field1, field2, content, -, -, -, htag, harg1, harg2, rfl, hline⟩ := h
  have hwrite : write field field1 field2 content ⊆ line := by
    rcases hline with rfl | ⟨rfl, -⟩
    · exact List.subset_append_left _ _
    · exact fun _ hc => hc
  refine ⟨fun c hc => hwrite ?_, fun c hc => hwrite ?_, fun c hc => hwrite ?_, fun c hc => hwrite ?_⟩
  · simp [write, subset_of_carries htag hc]
  · simp [write, subset_of_carries harg1 hc]
  · simp [write, subset_of_carries harg2 hc]
  · cases content with
    | none => cases hc
    | some content =>
      have hcontent : c ∈ content := hc
      simp [write, hcontent]

end Frame

def Request.quotes : Request → List String
  | chat text => [text]
  | whisper target body => [target, body]
  | command (.nickname name) => [name]
  | command _ => []

variable {line : String} {request : Request} {refusal : Refusal}

theorem IsOneLine.of_subset {piece : List Char} (h : IsOneLine line) (hpiece : piece ⊆ line.toList) :
    IsOneLine (String.ofList piece) := by
  rw [IsOneLine, String.toList_ofList]
  exact fun hmem => h (hpiece hmem)

theorem Refusal.isOneLine_malformed {fault : FormatFault} (h : IsOneLine fault.describe) :
    ∀ text ∈ (malformed fault).quotes, IsOneLine text := by
  simpa [malformed, quotes] using h

theorem Request.Renders.isOneLine (h : Renders line.toList request) (hline : IsOneLine line) :
    ∀ text ∈ request.quotes, IsOneLine text := by
  cases h with
  | chat hwrites =>
    have hbody := hline.of_subset hwrites.subset.2.2.2
    simpa [quotes] using hbody
  | whisper hwrites =>
    obtain ⟨-, -, htarget, hbody⟩ := hwrites.subset
    have htarget := hline.of_subset htarget
    have hbody := hline.of_subset hbody
    simp [quotes, htarget, hbody]
  | command _ _ _ hmeans =>
    cases hmeans with
    | nickname hvalid | nick hvalid =>
      have hname := isOneLine_of_nameFlaw hvalid
      simpa [quotes] using hname
    | add | remove | join | leave | list | users | quit | help => simp [quotes]

theorem Command.Objects.isOneLine {verb argument : List Char} (h : Objects verb argument refusal)
    (hverb : IsOneLine (String.ofList verb)) (hargument : IsOneLine (String.ofList argument)) :
    ∀ text ∈ refusal.quotes, IsOneLine text := by
  cases h with
  | noVerb => exact Refusal.isOneLine_malformed (by decide +kernel)
  | @noArgument word what hspells hneeds =>
    have hwhat : IsOneLine what := by cases hneeds <;> decide
    exact Refusal.isOneLine_malformed (.append (hverb.enclose (by decide) (by decide)) hwhat)
  | @badName word what flaw hspells hneeds =>
    have hwhat : IsOneLine what := by cases hneeds <;> decide
    cases flaw with
    | empty => exact Refusal.isOneLine_malformed (hwhat.append (by decide +kernel))
    | tooLong =>
      exact Refusal.isOneLine_malformed (.append (.append (hwhat.append (by decide)) (isOneLine_toString _)) (by decide))
    | forbiddenCharacter =>
      exact Refusal.isOneLine_malformed (.append (.append (hwhat.append (by decide)) hargument) (by decide +kernel))
  | unknown => simpa [Refusal.quotes] using hverb

theorem Request.Objects.isOneLine (h : Objects line.toList refusal) (hline : IsOneLine line) :
    ∀ text ∈ refusal.quotes, IsOneLine text := by
  cases h with
  | missingFields => exact Refusal.isOneLine_malformed (by decide +kernel)
  | unknownType hwrites =>
    exact Refusal.isOneLine_malformed ((hline.of_subset hwrites.subset.1).enclose (by decide +kernel) (by decide))
  | noTarget => exact Refusal.isOneLine_malformed (by decide +kernel)
  | command hwrites _ hobjects =>
    obtain ⟨-, hverb, hargument, -⟩ := hwrites.subset
    exact hobjects.isOneLine (hline.of_subset hverb) (hline.of_subset hargument)

theorem Request.isOneLine_of_decode (hline : IsOneLine line) :
    (∀ request, decode line = .ok request → ∀ text ∈ request.quotes, IsOneLine text) ∧
    ∀ refusal, decode line = .error refusal → ∀ text ∈ refusal.quotes, IsOneLine text := by
  rcases renders_or_objects line with ⟨found, hrenders⟩ | ⟨found, hobjects⟩
  · have hok := decode_of_renders hrenders
    refine ⟨fun request h => ?_, fun refusal h => ?_⟩
    · obtain rfl := Except.ok.inj (hok.symm.trans h)
      exact hrenders.isOneLine hline
    · cases hok.symm.trans h
  · have herror := decode_of_objects hobjects
    refine ⟨fun request h => ?_, fun refusal h => ?_⟩
    · cases herror.symm.trans h
    · obtain rfl := Except.error.inj (herror.symm.trans h)
      exact hobjects.isOneLine hline

end ChatRooms
