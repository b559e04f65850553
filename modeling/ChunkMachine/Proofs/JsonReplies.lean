import ChunkMachine.Proofs.Presentation
import ChunkMachine.Proofs.Reading

/-!
# What a JSON reply tells

With the JSON switch on, a command that returns prints one document, and the document tells the status that
is returned. After a line that steps or resumes the program the document also tells where the program stands
and whether it has failed.

A command that returns has a report that fits its status (`Reply.Consistent`). The document of the report is
read back from the printed text, where a field is found whatever place it was sorted to. For lines that move
the engine it is used that the debugger stops without an error or with the fault that the engine has recorded
(`StopOf`).

A line whose first word is the mark of a line that cannot be split is the exception. The mark can be entered
in quotes, and an alias can give it a meaning; the line is taken for one that cannot be split all the same,
and what it prints is no document.

## What is proved

* `lookup_sortedFields`: a field of a record is found after the record has been sorted.
* `perform_consistent`: the report of a command fits its status.
* `moved_prints`: the document of a move tells where the engine stands.
* `json_reply_tells`: what the document of a line tells, and which lines print none.
-/

namespace ChunkMachine

/-! ### Fields of a sorted record -/

namespace Document

theorem names_insertField (field : String × Document) (fields : List (String × Document)) :
    ((insertField field fields).map Prod.fst).Perm (field.1 :: fields.map Prod.fst) := by
  induction fields with
  | nil => exact .refl _
  | cons other rest ih =>
    rw [insertField]
    split
    · exact .refl _
    · exact (ih.cons other.1).trans (.swap field.1 other.1 _)

theorem names_sortedFields (fields : List (String × Document)) :
    ((sortedFields fields).map Prod.fst).Perm (fields.map Prod.fst) := by
  induction fields with
  | nil =>
    rw [sortedFields]
  | cons field rest ih =>
    rw [sortedFields]
    exact (names_insertField _ _).trans (ih.cons field.1)

theorem lookup_field (field : String × Document) (fields : List (String × Document)) (name : String) :
    (field :: fields).lookup name = if name = field.1 then some field.2 else fields.lookup name := by
  rw [List.lookup_cons]
  by_cases hname : name = field.1
  · simp [hname]
  · simp [hname, beq_eq_false_iff_ne.2 hname]

theorem lookup_insertField {field : String × Document} {fields : List (String × Document)}
    (h : field.1 ∉ fields.map Prod.fst) (name : String) :
    (insertField field fields).lookup name = (field :: fields).lookup name := by
  induction fields with
  | nil => rfl
  | cons other rest ih =>
    simp only [List.map_cons, List.mem_cons, not_or] at h
    rw [insertField]
    split
    · rfl
    · rw [lookup_field, ih h.2, lookup_field, lookup_field, lookup_field]
      by_cases hname : name = field.1
      · have hother : name ≠ other.1 := hname ▸ h.1
        simp only [if_neg hother, if_pos hname]
      · simp only [if_neg hname]

/-- A field is found in a sorted record, wherever it went. -/
theorem lookup_sortedFields (fields : List (String × Document)) (h : (fields.map Prod.fst).Nodup)
    (name : String) : (sortedFields fields).lookup name = (fields.lookup name).map sorted := by
  induction fields with
  | nil =>
    rw [sortedFields]
    rfl
  | cons field rest ih =>
    obtain ⟨key, value⟩ := field
    obtain ⟨hkey, hrest⟩ := List.nodup_cons.1 h
    have hnew : key ∉ (sortedFields rest).map Prod.fst := fun hmem =>
      hkey ((names_sortedFields rest).mem_iff.1 hmem)
    rw [sortedFields, lookup_insertField hnew, lookup_field, lookup_field, ih hrest]
    split <;> rfl

theorem sortedItems_eq_map (items : List Document) :
    sortedItems items = items.map sorted := by
  induction items with
  | nil => rw [sortedItems, List.map_nil]
  | cons d rest ih => rw [sortedItems, List.map_cons, ih]

end Document

namespace Debugger

open Options

/-! ### Reports and statuses -/

/-- If the command returned, then it returned 0 with the report of a result or 1 with the report of an
error. -/
def Reply.Consistent (reply : Reply) : Prop :=
  ∀ code, reply.ended = .status code →
    (code = 0 ∧ ∃ message data, reply.report = some (.result message data)) ∨
      (code = 1 ∧ ∃ message details, reply.report = some (.error message details))

section Consistent

variable (s : Session)

theorem consistent_done (message : String) (data : Document) :
    (Reply.done s message data).Consistent := by
  intro code hcode
  cases hcode
  exact .inl ⟨rfl, _, _, rfl⟩

theorem consistent_refused (message : String) : (Reply.refused s message).Consistent := by
  intro code hcode
  cases hcode
  exact .inr ⟨rfl, _, _, rfl⟩

theorem consistent_escaped (escape : Escape) : (Reply.escaped s escape).Consistent := by
  intro code hcode
  cases hcode

theorem consistent_failed (fault : SessionFault) : (Reply.failed s fault).Consistent := by
  cases fault with
  | escape cause => exact consistent_escaped s cause
  | noProgram | noEngine | noPort | noChunk | load => exact consistent_refused s _

theorem consistent_misused (spec : Spec) (refusal : Refusal) :
    (Reply.misused s spec refusal).Consistent := by
  cases refusal with
  | usage message => exact consistent_refused s _
  | help =>
    intro code hcode
    cases hcode

theorem consistent_writing (numbers : List Int) {reply : Reply} (h : reply.Consistent) :
    (Reply.writing numbers reply).Consistent := by
  unfold Reply.writing
  split
  · exact h
  · exact consistent_escaped _ _

/-- A stop with an error returns 1, and any other one returns 0. -/
theorem consistent_moved (m : Move) : (moved s m).Consistent := by
  unfold moved
  split
  · rename_i stop _
    intro code hcode
    cases hcode
    cases hfailed : stop.failed
    · exact .inl ⟨rfl, stop.describe, some stop.document, by simp [Stop.report, hfailed]⟩
    · exact .inr ⟨rfl, stop.describe, stop.document, by simp [Stop.report, hfailed]⟩
  · intro code hcode
    cases hcode
  · intro code hcode
    cases hcode
  · intro code hcode
    cases hcode

/-- **The report of a command fits its status.** -/
theorem perform_consistent (fuel : Nat) (w : Surroundings) (r : Registry) (words : List String)
    (action : Action) : (perform fuel w r s words action).Consistent := by
  cases action with
  | help =>
    simp only [perform, help]
    split
    · exact consistent_refused s _
    · split
      · split
        · exact consistent_refused s _
        · exact consistent_done s _ _
      · split
        · exact consistent_refused s _
        · exact consistent_done s _ _
  | load =>
    simp only [perform, load]
    split
    · exact consistent_misused s _ _
    · split
      · exact consistent_escaped s _
      · split
        · exact consistent_escaped s _
        · exact consistent_refused s _
        · split
          · exact consistent_failed _ _
          · rename_i loaded _ _
            exact consistent_done loaded _ _
  | reset =>
    simp only [perform, reset]
    split
    · exact consistent_failed _ _
    · exact consistent_writing _ (consistent_done _ _ _)
  | step =>
    simp only [perform, step]
    split
    · exact consistent_misused s _ _
    · split
      · exact consistent_refused s _
      · exact consistent_moved s _
  | resume =>
    simp only [perform, goOn]
    split
    · exact consistent_misused s _ _
    · split
      · exact consistent_refused s _
      · split
        · exact consistent_escaped s _
        · exact consistent_moved s _
  | breakpoints =>
    simp only [perform, breakpoints]
    split
    · exact consistent_misused s _ _
    · apply consistent_writing
      split
      · exact consistent_refused s _
      · exact consistent_done _ _ _
    · apply consistent_writing
      split
      · exact consistent_refused s _
      · exact consistent_done _ _ _
    · exact consistent_done _ _ _
    · exact consistent_writing _ (consistent_done s _ _)
  | stack =>
    simp only [perform, stack]
    split
    · exact consistent_refused s _
    · exact consistent_done s _ _
  | info =>
    simp only [perform, info]
    split
    · exact consistent_refused s _
    · split
      · exact consistent_done s _ _
      · intro code hcode
        cases hcode
  | listing =>
    simp only [perform, listing]
    split
    · exact consistent_misused s _ _
    · split
      · exact consistent_refused s _
      · split
        · exact consistent_writing _ (consistent_refused s _)
        · exact consistent_writing _ (consistent_done s _ _)
  | aliases =>
    simp only [perform, aliases]
    split
    · exact consistent_misused s _ _
    · split
      · exact consistent_done s _ _
      · exact consistent_refused s _
      · exact consistent_done _ _ _
  | exit =>
    intro code hcode
    cases hcode
  | missing => exact consistent_escaped s _

end Consistent

/-! ### Documents -/

/-- The reply prints a record with these fields, a line break after it, and nothing else. -/
def Reply.Prints (reply : Reply) (fields : List (String × Document)) : Prop :=
  ∃ body, reply.text = body ++ "\n" ∧ Document.read body = some (.record fields)

/-- The fields tell the status that is returned. -/
structure TellsStatus (code : Nat) (fields : List (String × Document)) : Prop where
  ok : fields.lookup "status" = some (.text "ok") ↔ code = 0
  error : fields.lookup "status" = some (.text "error") ↔ code = 1
  message : fields.lookup "status" = some (.text "error") →
    ∃ message, fields.lookup "error" = some (.text message)

/-- The fields hold the data of a stop of the engine, which tell where the engine stands and whether it
has failed. -/
structure TellsStop (e : Engine) (fields data : List (String × Document)) : Prop where
  held : fields.lookup "result" = some (.record data) ∨ fields.lookup "details" = some (.record data)
  chunk : data.lookup "chunk" = some (.int e.current)
  steps : data.lookup "steps" = some (.int e.steps)
  failed : fields.lookup "status" = some (.text "error") ↔ data.lookup "reason" = some (.text "error")
  error : fields.lookup "status" = some (.text "error") →
    ∃ fault, e.status = .failed fault ∧ data.lookup "error" = some (.text fault.message)

section Documents

variable {reply : Reply} {message : String}

/-- A text says in one way at most what it prints. -/
theorem Reply.Prints.unique {fields fields' : List (String × Document)} (h : reply.Prints fields)
    (h' : reply.Prints fields') : fields = fields' := by
  obtain ⟨body, htext, hread⟩ := h
  obtain ⟨body', htext', hread'⟩ := h'
  have hbody : body = body' := by
    have hlists := congrArg String.toList (htext.symm.trans htext')
    rw [String.toList_append, String.toList_append] at hlists
    exact String.toList_inj.1 (List.append_cancel_right hlists)
  rw [hbody, hread'] at hread
  exact (Document.record.inj (Option.some.inj hread)).symm

theorem prints_result {data : Option Document} {fields : List (String × Document)}
    (hjson : reply.session.json = true) (hreport : reply.report = some (.result message data))
    (hfields : Report.resultDocument message data = .record fields) :
    reply.Prints (Document.sortedFields fields) := by
  refine ⟨(Document.record fields).sorted.render, ?_, ?_⟩
  · simp [Reply.text, hreport, Report.render, hjson, hfields]
  · rw [Document.read_render, Document.sorted]

theorem prints_error {details : Document} {fields : List (String × Document)}
    (hjson : reply.session.json = true) (hreport : reply.report = some (.error message details))
    (hfields : Report.errorDocument message details = .record fields) :
    reply.Prints (Document.sortedFields fields) := by
  refine ⟨(Document.record fields).sorted.render, ?_, ?_⟩
  · simp [Reply.text, hreport, Report.render, hjson, hfields]
  · rw [Document.read_render, Document.sorted]

/-- The document of a result tells that the command succeeded. -/
theorem tellsStatus_result (message : String) (data : Option Document) :
    ∃ fields, Report.resultDocument message data = .record fields ∧
      TellsStatus 0 (Document.sortedFields fields) := by
  cases data with
  | some data =>
    have hlookup := Document.lookup_sortedFields [("status", .text "ok"), ("result", data)]
      (by simp)
    refine ⟨_, rfl, ?_, ?_, ?_⟩ <;> simp [hlookup, Document.lookup_field, Document.sorted]
  | none =>
    have hlookup := Document.lookup_sortedFields
      [("status", .text "ok"), ("message", .text message)] (by simp)
    refine ⟨_, rfl, ?_, ?_, ?_⟩ <;> simp [hlookup, Document.lookup_field, Document.sorted]

/-- The document of an error tells that the command failed, and why. -/
theorem tellsStatus_error (message : String) (details : Document) :
    ∃ fields, Report.errorDocument message details = .record fields ∧
      TellsStatus 1 (Document.sortedFields fields) := by
  unfold Report.errorDocument
  split
  · have hlookup := Document.lookup_sortedFields
      [("status", .text "error"), ("error", .text message)] (by simp)
    refine ⟨_, rfl, ?_, ?_, ?_⟩ <;> simp [hlookup, Document.lookup_field, Document.sorted]
  · have hlookup := Document.lookup_sortedFields
      [("status", .text "error"), ("error", .text message), ("details", details)] (by simp)
    refine ⟨_, rfl, ?_, ?_, ?_⟩ <;> simp [hlookup, Document.lookup_field, Document.sorted]

/-- **The document of a command tells its status.** -/
theorem Reply.Consistent.prints {code : Nat} (h : reply.Consistent) (hjson : reply.session.json = true)
    (hended : reply.ended = .status code) :
    (code = 0 ∨ code = 1) ∧ ∃ fields, reply.Prints fields ∧ TellsStatus code fields := by
  rcases h code hended with ⟨rfl, message, data, hreport⟩ | ⟨rfl, message, details, hreport⟩
  · obtain ⟨fields, hfields, htells⟩ := tellsStatus_result message data
    exact ⟨.inl rfl, _, prints_result hjson hreport hfields, htells⟩
  · obtain ⟨fields, hfields, htells⟩ := tellsStatus_error message details
    exact ⟨.inr rfl, _, prints_error hjson hreport hfields, htells⟩

/-- The data of a stop that comes without an error. -/
theorem document_calm (e : Engine) (reason : StopReason) :
    (stopAt reason e none).document =
      .record [("reason", .text reason.name), ("chunk", .int e.current), ("steps", .int e.steps)] := by
  simp [Stop.document, Stop.failed, stopAt]

theorem failed_stopAt (e : Engine) (fault : Fault) :
    (stopAt .error e (some fault.message)).failed = true := by
  simp [Stop.failed, stopAt, fault.message_ne_empty]

/-- The data of a stop that comes with a fault. -/
theorem document_failed (e : Engine) (fault : Fault) :
    (stopAt .error e (some fault.message)).document =
      .record [("reason", .text "error"), ("chunk", .int e.current), ("steps", .int e.steps),
        ("error", .text fault.message)] := by
  rw [Stop.document, if_pos (failed_stopAt e fault)]
  rfl

/-- A stop without an error is told in a result. -/
theorem tellsStop_calm (e : Engine) {reason : StopReason} (hreason : reason.name ≠ "error") :
    ∃ data, TellsStop e
      (Document.sortedFields [("status", .text "ok"), ("result", (stopAt reason e none).document)])
      data := by
  have hfields := Document.lookup_sortedFields
    [("status", .text "ok"), ("result", (stopAt reason e none).document)] (by simp)
  have hdata := Document.lookup_sortedFields
    [("reason", .text reason.name), ("chunk", .int e.current), ("steps", .int e.steps)] (by simp)
  refine ⟨Document.sortedFields [("reason", .text reason.name), ("chunk", .int e.current),
    ("steps", .int e.steps)], .inl ?_, ?_, ?_, ?_, ?_⟩
  · rw [hfields]
    simp [document_calm, Document.lookup_field, Document.sorted]
  · simp [hdata, Document.lookup_field, Document.sorted]
  · simp [hdata, Document.lookup_field, Document.sorted]
  · simp [hfields, hdata, Document.sorted, hreason]
  · simp [hfields, Document.sorted]

/-- A stop with the fault of the engine is told in the details of an error. -/
theorem tellsStop_failed {e : Engine} {fault : Fault} (hfault : e.status = .failed fault)
    (message : String) :
    ∃ data, TellsStop e
      (Document.sortedFields [("status", .text "error"), ("error", .text message),
        ("details", (stopAt .error e (some fault.message)).document)]) data := by
  have hfields := Document.lookup_sortedFields
    [("status", .text "error"), ("error", .text message),
      ("details", (stopAt .error e (some fault.message)).document)] (by simp)
  have hdata := Document.lookup_sortedFields
    [("reason", .text "error"), ("chunk", .int e.current), ("steps", .int e.steps),
      ("error", .text fault.message)] (by simp)
  refine ⟨Document.sortedFields [("reason", .text "error"), ("chunk", .int e.current),
    ("steps", .int e.steps), ("error", .text fault.message)], .inr ?_, ?_, ?_, ?_, fun _ => ?_⟩
  · rw [hfields]
    simp [document_failed, Document.lookup_field, Document.sorted]
  · simp [hdata, Document.lookup_field, Document.sorted]
  · simp [hdata, Document.lookup_field, Document.sorted]
  · simp [hfields, hdata, Document.sorted]
  · exact ⟨fault, hfault, by simp [hdata, Document.lookup_field, Document.sorted]⟩

/-- **The document of a move tells where the engine stands.** -/
theorem moved_prints {s : Session} {m : Move} {code : Nat} (hstops : m.StopsThere)
    (hjson : s.json = true) (hended : (moved s m).ended = .status code) :
    ∃ fields data, (moved s m).Prints fields ∧ TellsStop m.engine fields data := by
  have hjson' : (moved s m).session.json = true := by
    rw [moved_session]
    exact hjson
  cases hverdict : m.verdict with
  | going | unfinished | escaped => simp [moved, hverdict, Reply.escaped] at hended
  | stopped stop =>
    have hreport : (moved s m).report = some stop.report := by simp [moved, hverdict]
    cases hstops stop hverdict with
    | calm hreason =>
      obtain ⟨data, htells⟩ := tellsStop_calm m.engine hreason
      exact ⟨_, data, prints_result hjson' hreport rfl, htells⟩
    | failed hfault =>
      rename_i fault
      obtain ⟨data, htells⟩ := tellsStop_failed hfault
        (stopAt .error m.engine (some fault.message)).describe
      rw [Stop.report, if_pos (failed_stopAt _ _)] at hreport
      refine ⟨_, data, prints_error hjson' hreport ?_, htells⟩
      simp [Report.errorDocument, document_failed, Document.isBare]

end Documents

/-! ### Lines -/

/-- No line turns the switch. -/
theorem json_reply (r : Registry) (s : Session) (x : Entry) :
    (x.reply r s).session.json = s.json := by
  have hsession := session_reply_withJson s.json r s x
  rw [withJson_self] at hsession
  rw [hsession, json_withJson]

/-- A line that can be split asks for the command that its first word stands for, unless that word is the
mark of a line that cannot. -/
theorem asked_of_words {r : Registry} {s : Session} {line word : String} {words : List String}
    {command : Command} (hwords : Text.splitWords true (Text.strip line) = .ok (word :: words))
    (hcommand : r.find? (s.resolve word) = some command) (hword : word ≠ parseErrorWord) :
    asked r s line = some (command.action, words) := by
  simp only [asked, commandWords, hwords, if_neg hword, hcommand, Option.map_some]

/-- Does the action step or resume the program when it is given these arguments? -/
def drivesWith (words : List String) : Action → Bool
  | .step => (parse stepSpec words).isOk
  | .resume => (parse resumeSpec words).isOk
  | _ => false

/-- A command that steps or resumes moves the engine, if it returns. -/
theorem perform_moves {fuel : Nat} {w : Surroundings} {r : Registry} {s : Session}
    {words : List String} {action : Action} {code : Nat} {e : Engine} (he : s.engine = some e)
    (hdrives : drivesWith words action = true)
    (hended : (perform fuel w r s words action).ended = .status code) :
    ∃ m : Move, perform fuel w r s words action = moved s m ∧ m.StopsThere := by
  cases action with
  | step =>
    cases hp : parse stepSpec words with
    | error refusal => simp [drivesWith, hp, Except.isOk, Except.toBool] at hdrives
    | ok p =>
      simp only [perform, step, hp, Session.needEngine, he]
      exact ⟨_, rfl, stepMany_stopsThere _ e⟩
  | resume =>
    cases hp : parse resumeSpec words with
    | error refusal => simp [drivesWith, hp, Except.isOk, Except.toBool] at hdrives
    | ok p =>
      simp only [perform, goOn, hp, Session.needEngine, he] at hended ⊢
      by_cases hblank : p.isBlank "max" = true
      · rw [if_pos hblank] at hended
        cases hended
      · rw [if_neg hblank]
        exact ⟨_, rfl, resumeFrom_stopsThere _ _ _ _ e⟩
  | help | load | reset | breakpoints | stack | info | listing | aliases | exit | missing =>
    cases hdrives

/-- A line that is taken for one that cannot be split prints no document. -/
theorem not_prints_noticed (s : Session) (reason : String) (fields : List (String × Document)) :
    ¬ (noticed s ("Parse error: " ++ reason)).Prints fields := by
  rintro ⟨body, htext, hread⟩
  have hbody : body = "Parse error: " ++ reason := by
    have hlists := congrArg String.toList htext.symm
    simp only [noticed, Reply.text, Option.elim_some, Report.render, String.toList_append] at hlists
    rw [← String.toList_inj, String.toList_append]
    exact List.append_cancel_right hlists
  subst hbody
  have hvalue (fuel : Nat) (rest : List Char) : Document.readValue (fuel + 1) ('P' :: rest) = none := by
    rw [Document.readValue]
    rfl
  simp [Document.read, hvalue] at hread

/-- **A JSON reply is one document that tells its status.** Let a line be entered in a session that prints
JSON, let its first word stand for a command and let it return. Then it prints a record, a line break and
nothing else, and the record tells the status: 0 for a result and 1 for an error, which comes with a message.
If the line steps or resumes a loaded program with arguments that are accepted, then the record also holds
the chunk and the number of steps of the engine after the line, and it is an error just if its reason is
`error`; then the engine has failed and the record holds the text of its fault. All this is so unless the
word is the mark of a line that cannot be split: then 1 is returned and no record is printed. -/
theorem json_reply_tells (r : Registry) {s : Session} (hjson : s.json = true) (x : Entry)
    {word : String} {words : List String} {command : Command} {code : Nat}
    (hwords : Text.splitWords true (Text.strip x.line) = .ok (word :: words))
    (hcommand : r.find? (s.resolve word) = some command)
    (hended : (x.reply r s).ended = .status code) :
    (word ≠ parseErrorWord → (code = 0 ∨ code = 1) ∧
      ∃ fields, (x.reply r s).Prints fields ∧ TellsStatus code fields ∧
        (s.engine.isSome → drivesWith words command.action = true →
          ∃ e data, (x.reply r s).session.engine = some e ∧ TellsStop e fields data)) ∧
    (word = parseErrorWord → code = 1 ∧ ∀ fields, ¬ (x.reply r s).Prints fields) := by
  have hjson' := (json_reply r s x).trans hjson
  constructor
  · intro hword
    have hreply : x.reply r s = perform x.fuel x.surroundings r s words command.action :=
      dispatch_of_asked (asked_of_words hwords hcommand hword)
    rw [hreply] at hended hjson' ⊢
    have hconsistent := perform_consistent s x.fuel x.surroundings r words command.action
    obtain ⟨hcode, fields, hprints, hstatus⟩ := hconsistent.prints hjson' hended
    refine ⟨hcode, fields, hprints, hstatus, fun hengine hdrives => ?_⟩
    obtain ⟨e, he⟩ := Option.isSome_iff_exists.1 hengine
    obtain ⟨m, hmoved, hstops⟩ := perform_moves he hdrives hended
    rw [hmoved] at hended hprints ⊢
    obtain ⟨fields', data, hprints', htells⟩ := moved_prints hstops hjson hended
    rw [hprints'.unique hprints] at htells
    exact ⟨m.engine, data, by rw [moved_session], htells⟩
  · rintro rfl
    have hreply : x.reply r s = noticed s ("Parse error: " ++ words.getLastD x.line) := by
      simp only [Entry.reply, dispatch, commandWords, hwords, if_true]
    rw [hreply] at hended ⊢
    cases hended
    exact ⟨rfl, not_prints_noticed s _⟩

/-- Lines that are entered where there is one file, with a program that fails for want of words. -/
def emptying (line : String) : Entry :=
  ⟨line, { files := { nodes := [(["p"], .file (encodeText "2FFFF"))] } }, 9⟩

/-- A session that prints JSON, in which the program has been loaded and the mark of a line that cannot be
split has been given a meaning. -/
def emptyingLoaded : Session :=
  sessionAfter registry [emptying "load p", emptying "alias '#parse-error' help"]
    (freshSession (Port.ofBuffer []) true (.number 5))

/-- The program fails, and the document holds its fault. The line that begins with the mark prints no
document, though its first word stands for a command. -/
theorem json_reply_tells_emptying :
    (∃ (fields data : List (String × Document)) (e : Engine) (fault : Fault),
      ((emptying "continue").reply registry emptyingLoaded).Prints fields ∧
      fields.lookup "status" = some (.text "error") ∧
      ((emptying "continue").reply registry emptyingLoaded).session.engine = some e ∧
      data.lookup "chunk" = some (.int e.current) ∧ e.status = .failed fault ∧
      data.lookup "error" = some (.text fault.message)) ∧
    emptyingLoaded.resolve parseErrorWord = "help" ∧
    ∀ fields, ¬ ((emptying "'#parse-error'").reply registry emptyingLoaded).Prints fields := by
  have hjson : emptyingLoaded.json = true := by decide +kernel
  have hengine : emptyingLoaded.engine.isSome = true := by decide +kernel
  have hended : ((emptying "continue").reply registry emptyingLoaded).ended = .status 1 := by
    decide +kernel
  have hmarked : ((emptying "'#parse-error'").reply registry emptyingLoaded).ended = .status 1 := by
    decide +kernel
  have hresolve : emptyingLoaded.resolve parseErrorWord = "help" := by decide +kernel
  have hcontinue : registry.find? (emptyingLoaded.resolve "continue") =
      some ⟨"continue", "Run until halt, error or breakpoint", ["c", "cont"], .resume⟩ := by
    decide +kernel
  have hhelp : registry.find? (emptyingLoaded.resolve parseErrorWord) = some helpCommand := by
    decide +kernel
  obtain ⟨hdocument, -⟩ := json_reply_tells registry hjson (emptying "continue") rfl hcontinue hended
  obtain ⟨-, hnone⟩ := json_reply_tells registry hjson (emptying "'#parse-error'") rfl hhelp hmarked
  obtain ⟨-, fields, hprints, hstatus, hstop⟩ := hdocument (by decide)
  obtain ⟨e, data, he, htells⟩ := hstop hengine (by decide +kernel)
  have herror := hstatus.error.2 rfl
  obtain ⟨fault, hfault, hmessage⟩ := htells.error herror
  exact ⟨⟨fields, data, e, fault, hprints, herror, he, htells.chunk, hfault, hmessage⟩, hresolve,
    (hnone rfl).2⟩

end Debugger

end ChunkMachine
