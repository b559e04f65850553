import ChunkMachine.Proofs.Quoting
import ChunkMachine.Proofs.Returns
import ChunkMachine.Proofs.ToolArguments
import Mathlib.Algebra.Group.Nat.Defs

/-!
# The JSON switch and what it does not change

The JSON switch of a session is to change the form of what is printed and nothing else. Two sessions that
differ in the switch are compared line by line: the lines are to end alike, to report the same and to leave
sessions that again differ in the switch alone.

For each action one lemma says that it commutes with turning the switch (`load_withJson` and so on). Three
actions are exceptions, all for a number that is too long to be written.

* Of a listing, only the plain text names the start of an empty part. A start that is too long breaks the
  command off there, while in JSON the same line succeeds.
* Of a restart, only the document names the seed. A seed that is too long breaks the command off in JSON,
  while the text is printed.
* The facts about an engine name its seed in both forms. The text is printed line by line up to the seed,
  of the document nothing is printed.

## What is proved

* `reply_withJson`: a line that is no such exception gives the same reply with either switch.
* `json_presents`: along all lines the sessions differ in the switch alone, and the lines end alike, but for
  listings with a long start and restarts with a long seed.
* `farListing_namesLongStart`: there are lines that name a long start, since a number in base sixteen is read
  whatever its length.
-/

namespace ChunkMachine.Text

/-! ### Long numbers -/

/-- A number in base sixteen with so many of the largest digits. -/
def manyF (n : Nat) : String := String.ofList ('0' :: 'x' :: List.replicate n 'F')

theorem readDigits_replicate (n : Nat) :
    readDigits 16 (List.replicate (n + 1) 'F') = some (List.replicate (n + 1) 15) := by
  induction n with
  | zero => rfl
  | succ n ih =>
    have hcons : List.replicate (n + 1 + 1) 'F' = 'F' :: List.replicate (n + 1) 'F' := rfl
    have hvalue : valueIn 16 'F' = some 15 := by decide
    rw [hcons, readDigits, ih, hvalue]
    · rfl
    · simp
    · simp [List.replicate_succ]

theorem ofDigits_replicate (n : Nat) : ofDigits 16 (List.replicate n 15) + 1 = 16 ^ n := by
  induction n with
  | zero => rfl
  | succ n ih =>
    have hsucc : ofDigits 16 (List.replicate (n + 1) 15) = 16 * ofDigits 16 (List.replicate n 15) + 15 := by
      simp [ofDigits, List.replicate_succ']
    rw [hsucc, Nat.pow_succ]
    omega

theorem mapM_plainForm {text : List Char} (h : ∀ c ∈ text, c.toNat < 128) :
    text.mapM plainForm = some text := by
  induction text with
  | nil => rfl
  | cons c rest ih =>
    obtain ⟨hc, hrest⟩ := List.forall_mem_cons.1 h
    rw [List.mapM_cons, plainForm, if_pos hc, ih hrest]
    rfl

theorem readLiteral_manyF (n : Nat) :
    readLiteral (manyF (n + 1)) = some (ofDigits 16 (List.replicate (n + 1) 15) : Int) := by
  have htext : (manyF (n + 1)).toList = '0' :: 'x' :: List.replicate (n + 1) 'F' := String.toList_ofList
  have hplain : (manyF (n + 1)).toList.mapM plainForm = some (manyF (n + 1)).toList := by
    refine mapM_plainForm fun c hc => ?_
    simp only [htext, List.mem_cons, List.mem_replicate] at hc
    rcases hc with rfl | rfl | ⟨-, rfl⟩ <;> decide
  have hends : (((manyF (n + 1)).toList.dropWhile isNumberSpace).reverse.dropWhile
      isNumberSpace).reverse = '0' :: 'x' :: List.replicate (n + 1) 'F' := by
    simp [manyF, List.replicate_succ', isNumberSpace]
  have hmark : readAnyBase ('0' :: 'x' :: List.replicate (n + 1) 'F') =
      some (ofDigits 16 (List.replicate (n + 1) 15)) := by
    have hdigits : readAfterMark 16 (List.replicate (n + 1) 'F') =
        (readDigits 16 (List.replicate (n + 1) 'F')).map (ofDigits 16) := by
      simp [List.replicate_succ, readAfterMark]
    simp only [readAnyBase, hdigits, readDigits_replicate, Option.map_some]
    rfl
  rw [readLiteral, readSigned, hplain]
  simp only [Option.bind_eq_bind, Option.bind_some, hends]
  exact congrArg (Option.map Int.ofNat) hmark

/-- A number with enough digits in base sixteen is too long to be written in base ten. -/
theorem writable_manyF {n : Nat} (hn : Nat.pow 10 maxDecimalDigits < 16 ^ n) :
    writable (ofDigits 16 (List.replicate n 15) : Int) = false := by
  have hlarge : Nat.pow 10 maxDecimalDigits ≤ ofDigits 16 (List.replicate n 15) :=
    Nat.le_of_lt_succ (Nat.lt_of_lt_of_eq hn (ofDigits_replicate n).symm)
  exact decide_eq_false (Nat.not_lt.2 hlarge)

theorem two_le_manyF (n : Nat) : 2 ≤ ofDigits 16 (List.replicate (n + 1) 15) := by
  have hvalue := ofDigits_replicate (n + 1)
  have hpos : 0 < 16 ^ n := Nat.pow_pos (by decide)
  rw [Nat.pow_succ] at hvalue
  omega

end ChunkMachine.Text

namespace ChunkMachine.Debugger

open Options

/-! ### Turning the switch -/

/-- The session with its JSON switch turned on or off. -/
def Session.withJson (json : Bool) (s : Session) : Session := { s with json }

/-- The reply with the JSON switch of its session turned on or off. It prints the same report. -/
def Reply.withJson (json : Bool) (reply : Reply) : Reply :=
  { reply with session := reply.session.withJson json }

section Replies

variable (json : Bool) (s : Session)

@[simp] theorem withJson_withJson (json' : Bool) :
    (s.withJson json').withJson json = s.withJson json := rfl

@[simp] theorem withJson_self : s.withJson s.json = s := rfl

@[simp] theorem json_withJson : (s.withJson json).json = json := rfl

@[simp] theorem engine_withJson : (s.withJson json).engine = s.engine := rfl

@[simp] theorem breakpoints_withJson : (s.withJson json).breakpoints = s.breakpoints := rfl

@[simp] theorem needEngine_withJson : (s.withJson json).needEngine = s.needEngine := rfl

@[simp] theorem sortedAliases_withJson : (s.withJson json).sortedAliases = s.sortedAliases := rfl

@[simp] theorem resetVisited_withJson :
    (s.withJson json).resetVisited = s.resetVisited.withJson json := by
  have hheld : (s.withJson json).held = s.held := rfl
  unfold Session.resetVisited
  rw [hheld]
  cases s.held <;> rfl

@[simp] theorem done_withJson (message : String) (data : Document) :
    Reply.done (s.withJson json) message data = (Reply.done s message data).withJson json := rfl

@[simp] theorem refused_withJson (message : String) :
    Reply.refused (s.withJson json) message = (Reply.refused s message).withJson json := rfl

@[simp] theorem escaped_withJson (escape : Escape) :
    Reply.escaped (s.withJson json) escape = (Reply.escaped s escape).withJson json := rfl

@[simp] theorem failed_withJson (fault : SessionFault) :
    Reply.failed (s.withJson json) fault = (Reply.failed s fault).withJson json := by
  cases fault <;> rfl

@[simp] theorem misused_withJson (spec : Spec) (refusal : Refusal) :
    Reply.misused (s.withJson json) spec refusal = (Reply.misused s spec refusal).withJson json := by
  cases refusal <;> rfl

@[simp] theorem writing_withJson (numbers : List Int) (reply : Reply) :
    Reply.writing numbers (reply.withJson json) = (Reply.writing numbers reply).withJson json := by
  unfold Reply.writing
  split <;> rfl

@[simp] theorem moved_withJson (m : Move) :
    moved (s.withJson json) m = (moved s m).withJson json := by
  unfold moved
  split <;> rfl

end Replies

/-! ### Actions -/

section Actions

variable (json : Bool) (w : Surroundings) (r : Registry) (s : Session) (words : List String)

/-- Restarting a session does not depend on the switch. -/
theorem sessionReset_withJson (clock : Int) :
    (s.withJson json).reset clock =
      (s.reset clock).map fun result => (result.1.withJson json, result.2) := by
  have hport : (s.withJson json).port? = s.port? := rfl
  have hprogram : (s.withJson json).program = s.program := rfl
  have hseed : (s.withJson json).seed = s.seed := rfl
  unfold Session.reset
  rw [hport, hprogram, hseed]
  cases s.program with
  | none => rfl
  | some program =>
    cases s.port? with
    | none => rfl
    | some port => cases s.seed.value clock <;> rfl

theorem load_withJson : load w (s.withJson json) words = (load w s words).withJson json := by
  unfold load
  split
  · simp
  · simp only
    split
    · simp
    · split
      · simp
      · simp
      · rename_i path _ _ program _
        have hadopt : (s.withJson json).adopt path program = (s.adopt path program).withJson json := rfl
        rw [hadopt, sessionReset_withJson]
        cases (s.adopt path program).reset w.clock with
        | error fault => simp only [Except.map, failed_withJson]; rfl
        | ok result => rfl

theorem step_withJson : step (s.withJson json) words = (step s words).withJson json := by
  unfold step
  rw [needEngine_withJson]
  split
  · simp
  · split <;> simp

theorem goOn_withJson (fuel : Nat) :
    goOn fuel (s.withJson json) words = (goOn fuel s words).withJson json := by
  unfold goOn
  rw [needEngine_withJson, breakpoints_withJson]
  split
  · simp
  · split
    · simp
    · split <;> simp

theorem addBreakpoint_withJson (index : Int) :
    (s.withJson json).addBreakpoint index =
      (s.addBreakpoint index).map (Session.withJson json) := by
  have hprogram : (s.withJson json).program = s.program := rfl
  unfold Session.addBreakpoint
  rw [hprogram, breakpoints_withJson]
  cases s.program with
  | none => rfl
  | some program =>
    simp only
    split <;> rfl

theorem clearBreakpoint_withJson (index : Int) :
    (s.withJson json).clearBreakpoint index =
      (s.clearBreakpoint index).map (Session.withJson json) := by
  unfold Session.clearBreakpoint
  rw [breakpoints_withJson]
  split <;> rfl

theorem breakpointsAction_withJson :
    breakpoints (s.withJson json) words = (breakpoints s words).withJson json := by
  unfold breakpoints
  cases breakRequest words with
  | error refusal => simp
  | ok request =>
    cases request with
    | add index =>
      simp only [addBreakpoint_withJson]
      cases s.addBreakpoint index <;> simp [Except.map]
    | clear index =>
      simp only [clearBreakpoint_withJson]
      cases s.clearBreakpoint index <;> simp
    | clearAll => rfl
    | list => simp

theorem stack_withJson : stack (s.withJson json) = (stack s).withJson json := by
  unfold stack
  rw [needEngine_withJson]
  split <;> simp

theorem aliases_withJson : aliases (s.withJson json) words = (aliases s words).withJson json := by
  unfold aliases
  rw [sortedAliases_withJson]
  split
  · simp
  · split
    · simp
    · simp
    · rfl

theorem help_withJson : help r (s.withJson json) words = (help r s words).withJson json := by
  unfold help
  split
  · simp
  · have hresolve (word : String) : (s.withJson json).resolve word = s.resolve word := rfl
    simp only [hresolve]
    split <;> split <;> rfl

end Actions

/-! ### Listing -/

/-- The line lists an empty part of the loaded program, with a start that is too long to be written. -/
def Entry.NamesLongStart (r : Registry) (s : Session) (x : Entry) : Prop :=
  ∃ words p e, asked r s x.line = some (.listing, words) ∧ parse listingSpec words = .ok p ∧
    s.engine = some e ∧ 0 ≤ askedStart e p ∧ askedWindow e p = [] ∧
    Text.writable (askedStart e p) = false

section Listing

variable {s : Session} {words : List String}

/-- An empty part of the program is listed with a text that names its start, and with a document that does
not. -/
theorem listing_of_empty {p : Parsed} {e : Engine} (hparse : parse listingSpec words = .ok p)
    (he : s.engine = some e) (hstart : 0 ≤ askedStart e p) (hempty : askedWindow e p = []) :
    (listing s words).ended =
      if Text.writable (askedStart e p) || s.json then .status 0 else .escaped .longNumber := by
  rw [listing_of_engine hparse he, if_neg (by omega), hempty]
  cases s.json <;> cases hwritable : Text.writable (askedStart e p) <;>
    simp [Reply.writing, Reply.done, Reply.escaped, hwritable]

/-- A listing is the same with either switch, unless it is of an empty part with a start that is too long
to be written. -/
theorem listing_withJson (json : Bool)
    (hshort : ∀ p e, parse listingSpec words = .ok p → s.engine = some e → 0 ≤ askedStart e p →
      askedWindow e p = [] → Text.writable (askedStart e p) = true) :
    listing (s.withJson json) words = (listing s words).withJson json := by
  cases hparse : parse listingSpec words with
  | error refusal => simp [listing, hparse]
  | ok p =>
    cases he : s.engine with
    | none => simp [listing, hparse, Session.needEngine, he]
    | some e =>
      rw [listing_of_engine (s := s.withJson json) hparse he, listing_of_engine hparse he]
      split
      · simp
      · rename_i hstart
        -- no number that is written depends on the switch: the start of an empty part can be written
        have hwritten (b : Bool) (reply : Reply) :
            Reply.writing (if (askedWindow e p).isEmpty && !b then [askedStart e p] else []) reply =
              reply := by
          by_cases hempty : askedWindow e p = []
          · have hwritable := hshort p e hparse he (by omega) hempty
            cases b <;> simp [Reply.writing, hempty, hwritable]
          · simp [Reply.writing, hempty]
        rw [hwritten, hwritten, done_withJson]

end Listing

/-! ### Seeds -/

/-- The line restarts the program with a seed that is too long to be written. -/
def Entry.RestartsLongSeed (r : Registry) (s : Session) (x : Entry) : Prop :=
  ∃ words program port n, asked r s x.line = some (.reset, words) ∧ s.program = some program ∧
    s.port? = some port ∧ s.seed.value x.surroundings.clock = .ok n ∧ Text.writable n = false

/-- The line shows the facts about an engine whose seed is too long to be written. -/
def Entry.ShowsLongSeed (r : Registry) (s : Session) (x : Entry) : Prop :=
  ∃ words e, asked r s x.line = some (.info, words) ∧ s.engine = some e ∧ Text.writable e.seed = false

section Seeds

variable {s : Session} {w : Surroundings}

/-- A restart leaves the same session with either switch. -/
theorem session_reset_withJson (json : Bool) (w : Surroundings) (s : Session) :
    (reset w (s.withJson json)).session = (reset w s).session.withJson json := by
  unfold reset
  rw [sessionReset_withJson]
  cases s.reset w.clock with
  | error fault => simp only [Except.map, resetVisited_withJson, failed_withJson, Reply.withJson]
  | ok result => simp only [Except.map, session_writing, Reply.done]

/-- A restart is the same with either switch, unless the seed is too long to be written. -/
theorem reset_withJson (json : Bool)
    (hshort : ∀ program port n, s.program = some program → s.port? = some port →
      s.seed.value w.clock = .ok n → Text.writable n = true) :
    reset w (s.withJson json) = (reset w s).withJson json := by
  unfold reset
  rw [sessionReset_withJson]
  cases hreset : s.reset w.clock with
  | error fault => simp only [Except.map, resetVisited_withJson, failed_withJson]
  | ok result =>
    obtain ⟨program, port, n, hprogram, hport, hseed, he, -⟩ := reset_eq_ok hreset
    have hwritable : Text.writable result.2.seed = true := by
      rw [he]
      exact hshort program port n hprogram hport hseed
    have hwritten (b : Bool) (reply : Reply) :
        Reply.writing (if b then [result.2.seed] else []) reply = reply := by
      cases b <;> simp [Reply.writing, hwritable]
    simp only [Except.map, hwritten, done_withJson]

/-- A restart with a seed that is too long ends in two ways. -/
theorem ended_reset_of_long {program : Program} {port : Port} {n : Int}
    (hprogram : s.program = some program) (hport : s.port? = some port)
    (hseed : s.seed.value w.clock = .ok n) (hlong : Text.writable n = false) :
    (reset w s).ended = if s.json then .escaped .longNumber else .status 0 := by
  have hwritable : Text.writable (Engine.start program port n false).seed = false := hlong
  unfold reset
  rw [reset_of_loaded hprogram hport hseed]
  cases hjson : s.json <;> simp [Session.withEngine, hjson, Reply.writing, hwritable, Reply.done,
    Reply.escaped]

/-- The facts are the same with either switch, unless the seed is too long to be written. -/
theorem info_withJson (json : Bool)
    (hshort : ∀ e, s.engine = some e → Text.writable e.seed = true) :
    info (s.withJson json) = (info s).withJson json := by
  cases he : s.engine with
  | none => simp [info, Session.needEngine, he]
  | some e =>
    simp only [info, Session.needEngine, engine_withJson, he, hshort e he, if_pos, done_withJson]
    rfl

theorem ended_info_of_long {e : Engine} (he : s.engine = some e) (hlong : Text.writable e.seed = false) :
    (info s).ended = .escaped .longNumber := by
  simp [info, Session.needEngine, he, hlong, Reply.escaped]

end Seeds

/-! ### Lines -/

section Lines

variable {r : Registry} {s : Session} {x : Entry}

theorem asked_withJson (json : Bool) (r : Registry) (s : Session) (line : String) :
    asked r (s.withJson json) line = asked r s line := by
  have haliases : (s.withJson json).aliases = s.aliases := rfl
  exact asked_congr haliases r line

theorem dispatch_withJson_of_not_asked (json : Bool) {fuel : Nat} {w : Surroundings} {line : String}
    (h : asked r s line = none) :
    dispatch fuel w r (s.withJson json) line = (dispatch fuel w r s line).withJson json := by
  have hresolve (word : String) : (s.withJson json).resolve word = s.resolve word := rfl
  unfold asked at h
  unfold dispatch
  cases hline : commandWords (Text.strip line) with
  | nil => rfl
  | cons word rest =>
    simp only [hline] at h ⊢
    by_cases hword : word = parseErrorWord
    · simp only [if_pos hword]
      rfl
    · rw [if_neg hword] at h
      simp only [if_neg hword, hresolve, Option.map_eq_none_iff.1 h]
      rfl

/-- **A line gives the same reply with either switch**, unless it writes a number that is too long. -/
theorem reply_withJson (json : Bool) (hstart : ¬ x.NamesLongStart r s) (hrestart : ¬ x.RestartsLongSeed r s)
    (hshow : ¬ x.ShowsLongSeed r s) : x.reply r (s.withJson json) = (x.reply r s).withJson json := by
  unfold Entry.reply
  have hasked' := asked_withJson json r s x.line
  cases hasked : asked r s x.line with
  | none => exact dispatch_withJson_of_not_asked json hasked
  | some request =>
    obtain ⟨action, words⟩ := request
    rw [hasked] at hasked'
    rw [dispatch_of_asked hasked, dispatch_of_asked hasked']
    cases action with
    | help => exact help_withJson _ _ _ _
    | load => exact load_withJson _ _ _ _
    | step => exact step_withJson _ _ _
    | resume => exact goOn_withJson _ _ _ _
    | breakpoints => exact breakpointsAction_withJson _ _ _
    | stack => exact stack_withJson _ _
    | aliases => exact aliases_withJson _ _ _
    | exit | missing => rfl
    | reset =>
      refine reset_withJson json fun program port n hprogram hport hseed => ?_
      by_contra hlong
      exact hrestart ⟨words, program, port, n, hasked, hprogram, hport, hseed, Bool.not_eq_true _ ▸ hlong⟩
    | info =>
      refine info_withJson json fun e he => ?_
      by_contra hlong
      exact hshow ⟨words, e, hasked, he, Bool.not_eq_true _ ▸ hlong⟩
    | listing =>
      refine listing_withJson json fun p e hparse he hstart' hempty => ?_
      by_contra hlong
      exact hstart ⟨words, p, e, hasked, hparse, he, hstart', hempty, Bool.not_eq_true _ ▸ hlong⟩

/-- A line that names a long start ends in two ways. -/
theorem ended_of_namesLongStart (h : x.NamesLongStart r s) :
    (x.reply r s).ended = if s.json then .status 0 else .escaped .longNumber := by
  obtain ⟨words, p, e, hasked, hparse, he, hstart, hempty, hlong⟩ := h
  have hreply : x.reply r s = listing s words := dispatch_of_asked hasked
  rw [hreply, listing_of_empty hparse he hstart hempty, hlong, Bool.false_or]

/-- A line that restarts the program with a long seed ends in two ways. -/
theorem ended_of_restartsLongSeed (h : x.RestartsLongSeed r s) :
    (x.reply r s).ended = if s.json then .escaped .longNumber else .status 0 := by
  obtain ⟨words, program, port, n, hasked, hprogram, hport, hseed, hlong⟩ := h
  have hreply : x.reply r s = reset x.surroundings s := dispatch_of_asked hasked
  rw [hreply, ended_reset_of_long hprogram hport hseed hlong]

/-- A line that shows a long seed is broken off with either switch. -/
theorem ended_of_showsLongSeed (h : x.ShowsLongSeed r s) :
    (x.reply r s).ended = .escaped .longNumber := by
  obtain ⟨words, e, hasked, he, hlong⟩ := h
  have hreply : x.reply r s = info s := dispatch_of_asked hasked
  rw [hreply, ended_info_of_long he hlong]

/-- What a line is does not depend on the switch. -/
theorem namesLongStart_withJson (json : Bool) :
    x.NamesLongStart r (s.withJson json) ↔ x.NamesLongStart r s := by
  unfold Entry.NamesLongStart
  rw [asked_withJson, engine_withJson]

theorem restartsLongSeed_withJson (json : Bool) :
    x.RestartsLongSeed r (s.withJson json) ↔ x.RestartsLongSeed r s := by
  unfold Entry.RestartsLongSeed
  rw [asked_withJson]
  rfl

theorem showsLongSeed_withJson (json : Bool) :
    x.ShowsLongSeed r (s.withJson json) ↔ x.ShowsLongSeed r s := by
  unfold Entry.ShowsLongSeed
  rw [asked_withJson, engine_withJson]

/-- **No line makes more of a difference between the sessions** than the switch that they differ in. -/
theorem session_reply_withJson (json : Bool) (r : Registry) (s : Session) (x : Entry) :
    (x.reply r (s.withJson json)).session = (x.reply r s).session.withJson json := by
  have hreplies {action : Action} {words : List String} (hasked : asked r s x.line = some (action, words)) :
      x.reply r (s.withJson json) =
          perform x.fuel x.surroundings r (s.withJson json) words action ∧
        x.reply r s = perform x.fuel x.surroundings r s words action :=
    ⟨dispatch_of_asked ((asked_withJson json r s x.line).trans hasked), dispatch_of_asked hasked⟩
  by_cases hstart : x.NamesLongStart r s
  · obtain ⟨words, -, -, hasked, -⟩ := hstart
    rw [(hreplies hasked).1, (hreplies hasked).2, perform, perform, listing_session, listing_session]
  · by_cases hrestart : x.RestartsLongSeed r s
    · obtain ⟨words, -, -, -, hasked, -⟩ := hrestart
      rw [(hreplies hasked).1, (hreplies hasked).2, perform, perform, session_reset_withJson]
    · by_cases hshow : x.ShowsLongSeed r s
      · obtain ⟨words, -, hasked, -⟩ := hshow
        rw [(hreplies hasked).1, (hreplies hasked).2, perform, perform, info_session, info_session]
      · rw [reply_withJson json hstart hrestart hshow]
        rfl

theorem sessionAfter_withJson (json : Bool) (r : Registry) (entries : List Entry) :
    ∀ s : Session, sessionAfter r entries (s.withJson json) =
      (sessionAfter r entries s).withJson json := by
  induction entries with
  | nil => intro s; rfl
  | cons x rest ih =>
    intro s
    rw [sessionAfter, sessionAfter, session_reply_withJson, ih]

end Lines

/-! ### A start that is too long -/

theorem parse_listing {word : String} {n : Int} (hdash : Text.begins "-" word = false)
    (hread : Text.readLiteral word = some n) :
    parse listingSpec [word] = .ok { values := [("start", .int n)] } := by
  have hdashes : word ≠ "--" := by
    rintro rfl
    cases hdash
  have hwaiting : listingSpec.operands =
      [{ name := "start", arity := .optional, reading := .literal },
        { name := "count", arity := .optional, reading := .decimal }] := rfl
  refine parse_of_parseFrom
    (mark_cons hdashes (markWord_of_undashed (by decide) hdash) rfl) ?_ rfl
  rw [hwaiting, parseFrom]
  · simp [handOut, Arity.take, spanDashes, applyOperand, hdashes, Reading.read, hread, parseFrom,
      Parsed.add, Except.map, bind, Except.bind, pure, Except.pure]
  all_goals simp

/-- A line that lists the program from a chunk far behind its end. -/
def farListing (n : Nat) : Entry := ⟨"disasm " ++ Text.quoteWord (Text.manyF n), oneFile, 0⟩

/-- A session in which a program has been loaded. -/
def farLoaded : Session :=
  sessionAfter registry [loading] ((freshSession (Port.ofBuffer []) false (.number 5)).withJson false)

theorem find?_disasm : registry.find? (farLoaded.resolve "disasm") =
    some ⟨"disasm", "List chunks (default: around the current chunk)", ["dis"], .listing⟩ := by
  decide +kernel

theorem asked_farListing (n : Nat) :
    asked registry farLoaded (farListing n).line = some (.listing, [Text.manyF n]) := by
  have hplain : "disasm".toList.all Text.isPlain = true := by decide
  have hwords := commandWords_quoteWord (w := "disasm") (by decide) (List.all_eq_true.1 hplain)
    (Text.manyF n)
  have hline : "disasm" ++ " " ++ Text.quoteWord (Text.manyF n) = (farListing n).line := rfl
  rw [hline] at hwords
  simp only [asked, hwords, find?_disasm, if_neg (show "disasm" ≠ parseErrorWord by decide), Option.map_some]

/-- A start of enough digits is too long to be written, and far behind the end of the program. -/
theorem farListing_namesLongStart {n : Nat} (hn : Nat.pow 10 Text.maxDecimalDigits < 16 ^ (n + 1)) :
    (farListing (n + 1)).NamesLongStart registry farLoaded := by
  have hdash : Text.begins "-" (Text.manyF (n + 1)) = false := by
    simp [Text.begins, Text.manyF, List.isPrefixOf]
  have hparse := parse_listing hdash (Text.readLiteral_manyF n)
  have hcount : farLoaded.engine.map (fun e => e.code.program.listing.length) = some 2 := by
    decide +kernel
  obtain ⟨e, he, hlength⟩ := Option.map_eq_some_iff.1 hcount
  refine ⟨_, _, e, asked_farListing (n + 1), hparse, he, Int.natCast_nonneg _, ?_, ?_⟩
  · have hdrop : e.code.program.listing.drop (Text.ofDigits 16 (List.replicate (n + 1) 15)) = [] :=
      List.drop_eq_nil_of_le (hlength ▸ Text.two_le_manyF n)
    exact (congrArg _ hdrop).trans List.take_nil
  · exact Text.writable_manyF hn

/-! ### A seed that is too long -/

/-- A line that restarts the program. -/
def restarting : Entry := ⟨"reset", oneFile, 0⟩

/-- A session whose seed has 4301 digits, after a program has been loaded. -/
def longSeeded : Session :=
  sessionAfter registry [loading]
    ((freshSession (Port.ofBuffer []) false (.number (Nat.pow 10 Text.maxDecimalDigits))).withJson false)

theorem restarting_restartsLongSeed : restarting.RestartsLongSeed registry longSeeded := by
  have hasked : asked registry longSeeded restarting.line = some (.reset, []) := by decide +kernel
  have hprogram : longSeeded.program.isSome = true := by decide +kernel
  have hport : longSeeded.port?.isSome = true := by decide +kernel
  have hseed : longSeeded.seed = .number (Nat.pow 10 Text.maxDecimalDigits) := by decide +kernel
  obtain ⟨program, hprogram⟩ := Option.isSome_iff_exists.1 hprogram
  obtain ⟨port, hport⟩ := Option.isSome_iff_exists.1 hport
  exact ⟨[], program, port, (Nat.pow 10 Text.maxDecimalDigits : Nat), hasked, hprogram, hport,
    congrArg (Seed.value 0) hseed, by decide +kernel⟩

/-! ### Two sessions -/

/-- **The JSON switch changes only what is printed, but for listings with a long start and restarts with a
long seed.** Let the same lines be entered in a session that prints texts and in one that prints JSON. The
sessions that they lead to differ in the switch alone, and so they do after one more line.

That line gives the same reply in both, so that it ends in the same way and prints one report in its two
forms, with three exceptions. If it lists an empty part of the program with a start that is too long to be
written, it is broken off where texts are printed and succeeds where JSON is printed. If it restarts the
program with a seed that is too long to be written, it is the other way round. If it shows such a seed, it
is broken off in both. -/
theorem json_presents (r : Registry) (s : Session) (entries : List Entry) (x : Entry) :
    let plain := sessionAfter r entries (s.withJson false)
    let json := sessionAfter r entries (s.withJson true)
    plain.json = false ∧ json = plain.withJson true ∧
    (x.reply r json).session = (x.reply r plain).session.withJson true ∧
    (¬ x.NamesLongStart r plain → ¬ x.RestartsLongSeed r plain → ¬ x.ShowsLongSeed r plain →
      x.reply r json = (x.reply r plain).withJson true) ∧
    (x.NamesLongStart r plain →
      (x.reply r plain).ended = .escaped .longNumber ∧ (x.reply r json).ended = .status 0) ∧
    (x.RestartsLongSeed r plain →
      (x.reply r plain).ended = .status 0 ∧ (x.reply r json).ended = .escaped .longNumber) ∧
    (x.ShowsLongSeed r plain →
      (x.reply r plain).ended = .escaped .longNumber ∧
        (x.reply r json).ended = .escaped .longNumber) := by
  intro plain json
  have hjson : json = plain.withJson true := by
    simp only [plain, json, sessionAfter_withJson, withJson_withJson]
  have hplain : plain.json = false := by
    simp only [plain, sessionAfter_withJson, json_withJson]
  refine ⟨hplain, hjson, ?session, fun hstart hrestart hshow => ?same, fun hstart => ?start,
    fun hrestart => ?restart, fun hshow => ?facts⟩
  case session => rw [hjson, session_reply_withJson]
  case same => rw [hjson, reply_withJson true hstart hrestart hshow]
  case start =>
    rw [hjson, ended_of_namesLongStart hstart,
      ended_of_namesLongStart ((namesLongStart_withJson true).2 hstart), hplain, json_withJson]
    exact ⟨rfl, rfl⟩
  case restart =>
    rw [hjson, ended_of_restartsLongSeed hrestart,
      ended_of_restartsLongSeed ((restartsLongSeed_withJson true).2 hrestart), hplain, json_withJson]
    exact ⟨rfl, rfl⟩
  case facts =>
    rw [hjson]
    exact ⟨ended_of_showsLongSeed hshow,
      ended_of_showsLongSeed ((showsLongSeed_withJson true).2 hshow)⟩

/-- A listing from a chunk whose number has 3600 digits in base sixteen, and a restart with a seed that
has 4301 digits. -/
theorem json_presents_far :
    (((farListing 3600).reply registry farLoaded).ended = .escaped .longNumber ∧
      ((farListing 3600).reply registry (farLoaded.withJson true)).ended = .status 0) ∧
    (restarting.reply registry longSeeded).ended = .status 0 ∧
      (restarting.reply registry (longSeeded.withJson true)).ended = .escaped .longNumber := by
  have hlong : (farListing (3599 + 1)).NamesLongStart registry farLoaded :=
    farListing_namesLongStart (by decide +kernel)
  obtain ⟨-, hlisting, -, -, hlists, -⟩ := json_presents registry
    (freshSession (Port.ofBuffer []) false (.number 5)) [loading] (farListing (3599 + 1))
  obtain ⟨-, hrestart, -, -, -, hrestarts, -⟩ := json_presents registry
    (freshSession (Port.ofBuffer []) false (.number (Nat.pow 10 Text.maxDecimalDigits))) [loading] restarting
  have hlists := hlists hlong
  have hrestarts := hrestarts restarting_restartsLongSeed
  rw [hlisting] at hlists
  rw [hrestart] at hrestarts
  exact ⟨hlists, hrestarts⟩

end ChunkMachine.Debugger
