import ChunkMachine.Proofs.Agreement
import ChunkMachine.Proofs.JsonReplies
import ChunkMachine.Proofs.Lines
import ChunkMachine.Proofs.Splitting

/-!
# What a command line asks for

A command line is stripped and split. If it cannot be split, then this is reported; else its first word
stands for a command, by an alias or by the command's own name, and the other words are the arguments.

That a line cannot be split is told to the rest of the debugger by a word, the mark `#parse-error`. A line
can have this word for its own, and then it is reported as one that cannot be split though it was. It takes
some pains to enter it. Outside of quotes a hash mark begins a comment, unless a backslash protects it, so no
line without quotes and backslashes has a word with a hash mark (`exists_protected`).

The debugger itself writes such a line, when it is started with the name of a program. The name is quoted,
and whatever it is, the line loads that program.

## What is proved

* `Scan.unmarked_run`, `exists_protected`: which lines have a word with a hash mark.
* `not_tellsParseError_perform`: no command reports that its line cannot be split.
* `line_tells`: what becomes of each line.
* `load_line_words`: what becomes of the line that the debugger starts with.
-/

namespace ChunkMachine

namespace Text

/-! ### Hash marks -/

namespace Scan

/-- No quotes are open, nothing is protected, and there is no hash mark in the words. -/
structure Unmarked (x : Scan) : Prop where
  mode : x.mode = .between ∨ x.mode = .word ∨ x.mode = .comment
  words : ∀ w ∈ x.words, '#' ∉ w.toList
  token : '#' ∉ x.token

/-- The word that is being read joins the others. -/
theorem Unmarked.closeWord {x : Scan} (h : x.Unmarked) {mode : WordMode}
    (hmode : mode = .between ∨ mode = .word ∨ mode = .comment) : (x.closeWord mode).Unmarked := by
  refine ⟨hmode, List.forall_mem_append.2 ⟨h.words, ?_⟩, List.not_mem_nil⟩
  simpa using h.token

/-- A character that is neither a quote nor a backslash brings no hash mark into a word. -/
theorem Unmarked.advance {x : Scan} (h : x.Unmarked) {c : Char} (hquote : isQuote c = false)
    (hescape : c ≠ '\\') : (x.advance true c).Unmarked := by
  obtain ⟨words, mode, token⟩ := x
  rcases h.mode with rfl | rfl | rfl
  · simp only [Scan.advance, hquote, Bool.true_and, beq_iff_eq, hescape, Bool.false_eq_true, if_false]
    split_ifs with hseparator hmark
    · exact ⟨.inl rfl, h.words, List.not_mem_nil⟩
    · exact ⟨.inr (.inr rfl), h.words, List.not_mem_nil⟩
    · exact ⟨.inr (.inl rfl), h.words, by simpa using fun heq => hmark heq.symm⟩
  · simp only [Scan.advance, hquote, Bool.true_and, beq_iff_eq, hescape, Bool.false_eq_true, if_false]
    split_ifs with hseparator hmark
    · exact h.closeWord (.inl rfl)
    · exact h.closeWord (.inr (.inr rfl))
    · exact ⟨.inr (.inl rfl), h.words, List.not_mem_cons_of_ne_of_not_mem (fun heq => hmark heq.symm) h.token⟩
  · refine ⟨?_, h.words, List.not_mem_nil⟩
    simp only [Scan.advance]
    split
    · exact .inl rfl
    · exact .inr (.inr rfl)

theorem unmarked_run {cs : List Char} (h : ∀ c ∈ cs, isQuote c = false ∧ c ≠ '\\') :
    ∀ {x : Scan}, x.Unmarked → (x.run true cs).Unmarked := by
  induction cs with
  | nil => exact fun hx => hx
  | cons c cs ih =>
    intro x hx
    obtain ⟨hc, hcs⟩ := List.forall_mem_cons.1 h
    rw [run_cons]
    exact ih hcs (hx.advance hc.1 hc.2)

theorem Unmarked.finish {x : Scan} (h : x.Unmarked) {words : List String} (hwords : x.finish = .ok words) :
    ∀ w ∈ words, '#' ∉ w.toList := by
  obtain ⟨before, mode, token⟩ := x
  rcases h.mode with rfl | rfl | rfl <;> cases hwords
  · exact h.words
  · exact (h.closeWord (.inl rfl)).words
  · exact h.words

end Scan

/-- **A word with a hash mark can only be entered with quotes or a backslash.** -/
theorem exists_protected {line word : String} {words : List String} (h : splitWords true line = .ok words)
    (hword : word ∈ words) (hmark : '#' ∈ word.toList) :
    ∃ c ∈ line.toList, isQuote c = true ∨ c = '\\' := by
  by_contra hnone
  push Not at hnone
  have hplain : ∀ c ∈ line.toList, isQuote c = false ∧ c ≠ '\\' := fun c hc =>
    ⟨Bool.eq_false_iff.2 (hnone c hc).1, (hnone c hc).2⟩
  have hunmarked : (scan true line.toList).Unmarked :=
    Scan.unmarked_run hplain ⟨.inl rfl, by simp, List.not_mem_nil⟩
  rw [splitWords_eq_finish] at h
  exact hunmarked.finish h word hword hmark

end Text

namespace Debugger

/-! ### Reports of lines that cannot be split -/

/-- The reply tells that the line cannot be split. -/
def Reply.TellsParseError (reply : Reply) : Prop :=
  reply.ended = .status 1 ∧ ∃ reason, reply.text = "Parse error: " ++ reason ++ "\n"

theorem tellsParseError_noticed (s : Session) (reason : String) :
    (noticed s ("Parse error: " ++ reason)).TellsParseError := ⟨rfl, reason, rfl⟩

theorem not_tellsParseError_unknown (s : Session) (name : String) :
    ¬ (noticed s ("Unknown command: " ++ name)).TellsParseError := by
  rintro ⟨-, reason, htext⟩
  have hlists := congrArg (fun t => t.toList.head?) htext
  have hunknown : (noticed s ("Unknown command: " ++ name)).text = "Unknown command: " ++ name ++ "\n" := rfl
  simp [hunknown] at hlists

/-- **No command reports that its line cannot be split**: what it reports with the status 1 is an error of
its own, as a document or behind the word `error`. -/
theorem not_tellsParseError_perform (fuel : Nat) (w : Surroundings) (r : Registry) (s : Session)
    (words : List String) (action : Action) :
    ¬ (perform fuel w r s words action).TellsParseError := by
  rintro ⟨hended, reason, htext⟩
  have hconsistent := perform_consistent s fuel w r words action
  generalize perform fuel w r s words action = reply at *
  by_cases hjson : reply.session.json = true
  · obtain ⟨-, fields, ⟨body, hbody, hread⟩, -⟩ := hconsistent.prints hjson hended
    exact not_prints_noticed s reason fields ⟨body, htext.symm.trans hbody, hread⟩
  · obtain ⟨hcode, -⟩ | ⟨-, message, details, hreport⟩ := hconsistent 1 hended
    · cases hcode
    · have herror : reply.text = "error: " ++ message ++ "\n" := by
        simp [Reply.text, hreport, Report.render, hjson]
      have hlists := congrArg (fun t => t.toList.head?) (herror.symm.trans htext)
      simp at hlists

/-! ### Lines -/

/-- **What becomes of a line.** A line that cannot be split is reported with the reason that the splitter
gives; the line returns 1 and leaves the session as it is. A line without words does nothing. In any other
line the first word stands for a command, which is carried out with the other words for its arguments, or
what the word stands for is reported as unknown, and it is never reported that the line cannot be split. Only
for the mark itself this is wrong: a line with the mark for its first word is reported as one that cannot be
split. Such a line has a quote or a backslash. -/
theorem line_tells (fuel : Nat) (w : Surroundings) (r : Registry) (s : Session) (line : String) :
    let reply := dispatch fuel w r s line
    match Text.splitWords true (Text.strip line) with
    | .error fault =>
      reply.ended = .status 1 ∧ reply.text = "Parse error: " ++ fault.message ++ "\n" ∧
        reply.session = s ∧ reply.log = []
    | .ok [] => reply = { session := s, ended := .status 0 }
    | .ok (word :: words) =>
      if word = parseErrorWord then
        reply.TellsParseError ∧ reply.session = s ∧
          ∃ c ∈ line.toList, Text.isQuote c = true ∨ c = '\\'
      else
        ¬ reply.TellsParseError ∧
          reply =
            match r.find? (s.resolve word) with
            | none => noticed s ("Unknown command: " ++ s.resolve word)
            | some command => perform fuel w r s words command.action := by
  intro reply
  cases hsplit : Text.splitWords true (Text.strip line) with
  | error fault =>
    have hreply : reply = noticed s ("Parse error: " ++ fault.message) := by
      simp [reply, dispatch, commandWords, hsplit]
    rw [hreply]
    exact ⟨rfl, rfl, rfl, rfl⟩
  | ok all =>
    cases all with
    | nil => simp [reply, dispatch, commandWords, hsplit]
    | cons word words =>
      by_cases hword : word = parseErrorWord
      · have hreply : reply = noticed s ("Parse error: " ++ words.getLastD line) := by
          simp only [reply, dispatch, commandWords, hsplit, if_pos hword]
        have hmark : '#' ∈ word.toList := by
          rw [hword]
          decide
        obtain ⟨c, hc, hprotects⟩ := Text.exists_protected hsplit List.mem_cons_self hmark
        rw [hreply]
        simp only [if_pos hword]
        exact ⟨tellsParseError_noticed s _, rfl, c, Text.mem_of_mem_strip hc, hprotects⟩
      · cases hfind : r.find? (s.resolve word) with
        | none =>
          have hreply : reply = noticed s ("Unknown command: " ++ s.resolve word) := by
            simp only [reply, dispatch, commandWords, hsplit, if_neg hword, hfind]
          simp only [if_neg hword, hfind]
          exact ⟨hreply ▸ not_tellsParseError_unknown s _, hreply⟩
        | some command =>
          have hreply : reply = perform fuel w r s words command.action := by
            simp only [reply, dispatch, commandWords, hsplit, if_neg hword, hfind]
          simp only [if_neg hword, hfind]
          exact ⟨hreply ▸ not_tellsParseError_perform fuel w r s words _, hreply⟩

/-- A line with the mark in quotes is split, and reported all the same. Any other word of that kind is
reported as an unknown command. -/
theorem line_tells_mark :
    Text.splitWords true (Text.strip "'#parse-error'") = .ok [parseErrorWord] ∧
      (dispatch 0 {} registry {} "'#parse-error'").TellsParseError ∧
      Text.splitWords true (Text.strip "'#other'") = .ok ["#other"] ∧
      ¬ (dispatch 0 {} registry {} "'#other'").TellsParseError := by
  have hmark : Text.splitWords true (Text.strip "'#parse-error'") = .ok [parseErrorWord] := by decide
  have hother : Text.splitWords true (Text.strip "'#other'") = .ok ["#other"] := by decide
  have hmarked := line_tells 0 {} registry {} "'#parse-error'"
  have hunknown := line_tells 0 {} registry {} "'#other'"
  rw [hmark] at hmarked
  rw [hother] at hunknown
  exact ⟨hmark, hmarked.1, hother, hunknown.1⟩

/-- **The line that the debugger starts with loads the program that it was given**, whatever its name is:
empty, or with white space, quotes, backslashes or hash marks. The line is split into the word `load` and the
name, and nothing else is done with it. -/
theorem load_line_words (file : String) :
    Text.splitWords true (Text.strip ("load " ++ Text.quoteWord file)) = .ok ["load", file] ∧
      commandWords (Text.strip ("load " ++ Text.quoteWord file)) = ["load", file] ∧
      ∀ (fuel : Nat) (w : Surroundings) (s : Session),
        dispatch fuel w registry { s with aliases := [] } ("load " ++ Text.quoteWord file) =
          load w { s with aliases := [] } [file] := by
  have hplain : "load".toList.all Text.isPlain = true := by decide
  have hsplit := splitWords_quoteWord (w := "load") (by decide) (List.all_eq_true.1 hplain) file
  have hwords := commandWords_quoteWord (w := "load") (by decide) (List.all_eq_true.1 hplain) file
  exact ⟨hsplit, hwords, fun _ _ _ => dispatch_load rfl⟩

end Debugger

end ChunkMachine
