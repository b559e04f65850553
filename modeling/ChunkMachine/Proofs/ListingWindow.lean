import ChunkMachine.Proofs.JsonReplies
import ChunkMachine.Proofs.Listing
import ChunkMachine.Proofs.Numerals
import ChunkMachine.Proofs.Persistence

/-!
# The part of a listing that is shown

A `disasm` line shows a part of the listing of the program: the chunks from a start on, as many as a count
says, but at least one and no further than the end of the program. Without arguments the start is two chunks
before the current one and the count is 8. As the current chunk always is one of the program, its line is then
among those that are shown.

The words of a line name a start and a count if they are read as integers and taken as operands. Integers that
can be written in base ten are named by the words that they are written with. A start in another base may be
longer, and this makes a difference: where a start is behind the end of the program, a plain text is to name it,
and if that start cannot be written the line is broken off.

## What is proved

* `names_toString`: the words of two integers name these as the start and the count.
* `shown_eq`, `mem_shown`: the chunks that are shown.
* `listing_lists`: what a listing prints, in plain text and in JSON.
* `shown_around`: the chunks that are shown without arguments.
* `listing_window`: all of this for the lines that are entered in a session.
-/

namespace ChunkMachine

/-! ### The chunks that are shown -/

namespace Program

variable (p : Program)

/-- The chunks from a start on, as many as a count says but at least one, as far as there are any. -/
def shown (start count : Int) : List (Fin p.chunks.size) :=
  (List.finRange p.chunks.size).filter fun k => start ≤ (k : Int) ∧ (k : Int) < start + max 1 count

variable {p} {start count current : Int}

theorem mem_shown {k : Fin p.chunks.size} :
    k ∈ p.shown start count ↔ start ≤ (k : Int) ∧ (k : Int) < start + max 1 count := by
  simp [shown]

/-- What is shown is found in the list of all chunks by leaving out those in front and then those behind. -/
theorem shown_eq (hstart : 0 ≤ start) :
    p.shown start count =
      ((List.finRange p.chunks.size).drop start.toNat).take (max 1 count).toNat := by
  let inside (k : Fin p.chunks.size) : Bool := start ≤ (k : Int) ∧ (k : Int) < start + max 1 count
  let front := (List.finRange p.chunks.size).take start.toNat
  let rest := (List.finRange p.chunks.size).drop start.toNat
  let here := rest.take (max 1 count).toNat
  let behind := rest.drop (max 1 count).toNat
  have hfront : ∀ k ∈ front, ¬ inside k = true := by
    intro k hk
    obtain ⟨i, hi, rfl⟩ := List.mem_take_iff_getElem.1 hk
    simp only [inside, List.getElem_finRange, Fin.val_cast, decide_eq_true_iff]
    omega
  have hhere : ∀ k ∈ here, inside k = true := by
    intro k hk
    obtain ⟨i, hi, rfl⟩ := List.mem_take_iff_getElem.1 hk
    simp only [inside, rest, List.getElem_drop, List.getElem_finRange, Fin.val_cast, decide_eq_true_iff]
    omega
  have hbehind : ∀ k ∈ behind, ¬ inside k = true := by
    intro k hk
    obtain ⟨i, hi, rfl⟩ := List.mem_drop_iff_getElem.1 hk
    simp only [inside, rest, List.getElem_drop, List.getElem_finRange, Fin.val_cast, decide_eq_true_iff]
    omega
  have hsplit : List.finRange p.chunks.size = front ++ (here ++ behind) := by
    rw [List.take_append_drop, List.take_append_drop]
  calc p.shown start count
    _ = (front ++ (here ++ behind)).filter inside := congrArg (List.filter inside) hsplit
    _ = here := by
      rw [List.filter_append, List.filter_append, List.filter_eq_nil_iff.2 hfront,
        List.filter_eq_self.2 hhere, List.filter_eq_nil_iff.2 hbehind, List.nil_append, List.append_nil]

/-- The chunks that are shown follow one another. -/
theorem map_val_shown (hstart : 0 ≤ start) :
    (p.shown start count).map Fin.val =
      List.range' start.toNat (p.shown start count).length := by
  rw [shown_eq hstart]
  refine List.ext_getElem (by simp) fun i hi hi' => ?_
  simp

/-- Nothing is shown just if the start is behind the end of the program. -/
theorem shown_eq_nil_iff (hstart : 0 ≤ start) : p.shown start count = [] ↔ (p.chunkCount : Int) ≤ start := by
  rw [List.eq_nil_iff_forall_not_mem]
  constructor
  · intro hnone
    by_contra hlt
    have hsize : start.toNat < p.chunks.size := by
      simp only [chunkCount] at hlt
      omega
    refine hnone ⟨start.toNat, hsize⟩ (mem_shown.2 ?_)
    simp only
    omega
  · intro hle k hk
    have hlt := k.isLt
    have hfrom := (mem_shown.1 hk).1
    simp only [chunkCount] at hle
    omega

/-- One of the lines that are shown has the arrow if the current chunk is shown, and else none. -/
theorem countP_shown (hcurrent : 0 ≤ current) (hlt : current < p.chunkCount) :
    ((p.shown start count).map (p.lineOf (some current))).countP hasArrow =
      if start ≤ current ∧ current < start + max 1 count then 1 else 0 := by
  have hiff : (∃ k ∈ p.shown start count, some current = some (k : Int)) ↔
      start ≤ current ∧ current < start + max 1 count := by
    constructor
    · rintro ⟨k, hk, hsame⟩
      rw [Option.some.inj hsame]
      exact mem_shown.1 hk
    · intro hinside
      lift current to Nat using hcurrent
      exact ⟨⟨current, Int.ofNat_lt.1 hlt⟩, mem_shown.2 hinside, rfl⟩
  have hnodup : (p.shown start count).Nodup := (List.nodup_finRange _).filter _
  rw [p.countP_hasArrow hnodup]
  simp only [hiff]

end Program

namespace Debugger

open Options

/-! ### What a listing prints -/

/-- The reply lists these chunks of the program of the engine. In plain text each chunk has a line, and if there
are none the start is named; in JSON each has a document. -/
structure Reply.Lists (reply : Reply) (e : Engine) (start : Int)
    (chunks : List (Fin e.code.program.chunks.size)) : Prop where
  ended : reply.ended = .status 0
  plain : reply.session.json = false →
    reply.text =
      if chunks = [] then "no chunks at " ++ toString start ++ "\n"
      else unlines (chunks.map (e.code.program.lineOf (some e.current)))
  document : reply.session.json = true →
    reply.Prints
      [("result", .record
        [("current", .int e.current),
         ("listing", .list (chunks.map fun k => (e.code.program.entryOf k).document.sorted))]),
       ("status", .text "ok")]

section Lists

variable {s : Session} {words : List String} {p : Parsed} {e : Engine}

/-- The chunks that the arguments ask for. -/
def askedChunks (e : Engine) (p : Parsed) : List (Fin e.code.program.chunks.size) :=
  e.code.program.shown (askedStart e p) ((p.int? "count").getD 8)

theorem askedWindow_eq (hstart : 0 ≤ askedStart e p) :
    askedWindow e p = (askedChunks e p).map e.code.program.entryOf := by
  rw [askedChunks, Program.shown_eq hstart, List.map_take, List.map_drop, ← Program.listing_eq]
  rfl

theorem windowText_map {chunks : List (Fin e.code.program.chunks.size)} {start : Int} :
    windowText start e.current (chunks.map e.code.program.entryOf) ++ "\n" =
      if chunks = [] then "no chunks at " ++ toString start ++ "\n"
      else unlines (chunks.map (e.code.program.lineOf (some e.current))) := by
  by_cases hempty : chunks = []
  · subst hempty
    rfl
  · have hlines : listingLines (chunks.map e.code.program.entryOf) (some e.current) =
        chunks.map (e.code.program.lineOf (some e.current)) := List.map_map
    have hsome : chunks.map (e.code.program.lineOf (some e.current)) ≠ [] := by simpa using hempty
    rw [if_neg hempty, windowText, if_neg (by simpa using hempty), hlines, History.intercalate_newline hsome]

/-- **A listing shows the chunks that it is asked for**, unless there are none and the start that would be named
is too long to be written. -/
theorem listing_lists (hparse : parse listingSpec words = .ok p) (he : s.engine = some e)
    (hstart : 0 ≤ askedStart e p)
    (hshort : askedStart e p < e.code.chunkCount ∨ s.json = true ∨ Text.writable (askedStart e p) = true) :
    (listing s words).Lists e (askedStart e p) (askedChunks e p) := by
  have hnamed : (if (askedWindow e p).isEmpty && !s.json then [askedStart e p] else []).all
      Text.writable = true := by
    rcases hshort with hlt | hjson | hwritable
    · have hsome : askedChunks e p ≠ [] := fun hnone =>
        Int.not_le.2 hlt ((Program.shown_eq_nil_iff hstart).1 hnone)
      simp [askedWindow_eq hstart, hsome]
    · simp [hjson]
    · split <;> simp [hwritable]
  have hreply : listing s words =
      .done s (windowText (askedStart e p) e.current ((askedChunks e p).map e.code.program.entryOf))
        (.record [("current", .int e.current),
          ("listing", .list (((askedChunks e p).map e.code.program.entryOf).map Entry.document))]) := by
    rw [listing_of_engine hparse he, if_neg (Int.not_lt.2 hstart), Reply.writing, if_pos hnamed,
      askedWindow_eq hstart]
  rw [hreply]
  refine ⟨rfl, fun hjson => ?_, fun hjson => ?_⟩
  · rw [← windowText_map]
    have hplain : s.json = false := hjson
    simp [Reply.text, Reply.done, Report.render, hplain]
  · have hfields : ¬ "status" < "result" := by decide
    have hdata : "current" < "listing" := by decide
    have hprints := prints_result hjson rfl rfl
    simpa only [Document.sortedFields, Document.insertField, Document.sorted, Document.sortedItems_eq_map,
      if_neg hfields, if_pos hdata, List.map_map, Function.comp_def] using hprints

/-- A plain text that cannot name its start is not printed. -/
theorem listing_broken_off (hparse : parse listingSpec words = .ok p) (he : s.engine = some e)
    (hstart : 0 ≤ askedStart e p) (hbehind : (e.code.chunkCount : Int) ≤ askedStart e p)
    (hplain : s.json = false) (hlong : Text.writable (askedStart e p) = false) :
    listing s words = .escaped s .longNumber := by
  have hempty : askedWindow e p = [] := by
    rw [askedWindow_eq hstart, askedChunks, (Program.shown_eq_nil_iff hstart).2 hbehind, List.map_nil]
  rw [listing_of_engine hparse he, if_neg (Int.not_lt.2 hstart)]
  simp [Reply.writing, hempty, hplain, hlong, Reply.done, Reply.escaped]

/-- **What is shown without arguments**: up to 8 chunks one after the other, with the current one. -/
theorem shown_around (he : e.Placed) :
    0 ≤ askedStart e {} ∧ askedStart e {} < e.code.chunkCount ∧
    1 ≤ (askedChunks e {}).length ∧ (askedChunks e {}).length ≤ 8 ∧
    askedStart e {} ≤ e.current ∧ e.current < askedStart e {} + max 1 8 := by
  have hnonneg := he.current_nonneg
  have hlt := he.current_lt
  have hstart : askedStart e {} = max 0 (e.current - 2) := rfl
  have hsome : askedChunks e {} ≠ [] := by
    intro hnone
    have hbehind := (Program.shown_eq_nil_iff (by omega)).1 hnone
    simp only [Code.chunkCount] at hlt
    omega
  have hlength : (askedChunks e {}).length ≤ (max 1 8 : Int).toNat := by
    rw [askedChunks, Program.shown_eq (by omega)]
    exact List.length_take_le _ _
  refine ⟨by omega, by omega, List.length_pos_iff.2 hsome, hlength, by omega, by omega⟩

end Lists

/-! ### Words that name a part of the listing -/

/-- The words name this start and this count. -/
structure Names (a b : String) (start count : Int) : Prop where
  reads_start : Text.readLiteral a = some start
  reads_count : Text.readDecimal b = some count
  operand_start : markWord listingSpec a = .ok .operand
  operand_count : markWord listingSpec b = .ok .operand

/-- **Integers that can be written are named by the words that they are written with.** -/
theorem names_toString {start count : Int} (hstart : Text.writable start = true)
    (hcount : Text.writable count = true) : Names (toString start) (toString count) start count where
  reads_start := Text.readLiteral_toString hstart
  reads_count := Text.readDecimal_toString hcount
  operand_start := markWord_toString rfl start
  operand_count := markWord_toString rfl count

theorem parse_nothing : parse listingSpec [] = .ok {} := by
  have hknown : parseFrom listingSpec {} listingSpec.operands [] = .ok ({}, listingSpec.operands) := by
    rw [parseFrom]
  rw [parse, parseKnown, mark]
  simp only [bind, Except.bind, hknown]
  rfl

theorem Names.parse {a b : String} {start count : Int} (h : Names a b start count) :
    parse listingSpec [a, b] = .ok { values := [("start", .int start), ("count", .int count)] } := by
  have ha : a ≠ "--" := by
    rintro rfl
    have hnone : Text.readLiteral "--" = none := by decide +kernel
    exact Option.some_ne_none _ (h.reads_start.symm.trans hnone)
  have hb : b ≠ "--" := by
    rintro rfl
    have hnone : Text.readDecimal "--" = none := by decide +kernel
    exact Option.some_ne_none _ (h.reads_count.symm.trans hnone)
  have hwaiting : listingSpec.operands =
      [{ name := "start", arity := .optional, reading := .literal },
        { name := "count", arity := .optional, reading := .decimal }] := rfl
  refine parse_of_parseFrom
    (mark_cons ha h.operand_start (mark_cons hb h.operand_count rfl)) ?_ rfl
  rw [hwaiting, parseFrom]
  · simp [handOut, Arity.take, spanDashes, applyOperand, ha, hb, Reading.read, h.reads_start,
      h.reads_count, parseFrom, Parsed.add, Except.map, bind, Except.bind, pure, Except.pure]
  all_goals simp

/-! ### A start that is too long -/

/-- A line that shows one chunk far behind the end of the program. -/
def farWindow (n : Nat) : Entry :=
  ⟨"disasm" ++ " " ++ Text.manyF n ++ " " ++ Text.quoteWord "1", oneFile, 0⟩

theorem asked_farWindow (n : Nat) :
    asked registry farLoaded (farWindow n).line = some (.listing, [Text.manyF n, "1"]) := by
  have hword : "disasm".toList.all Text.isPlain = true := by decide
  have hnumber : ∀ c ∈ (Text.manyF n).toList, Text.isPlain c = true := by
    intro c hc
    simp only [Text.manyF, String.toList_ofList, List.mem_cons, List.mem_replicate] at hc
    rcases hc with rfl | rfl | ⟨-, rfl⟩ <;> decide
  have hne : Text.manyF n ≠ "" := by
    intro hempty
    have hnil := congrArg String.toList hempty
    simp [Text.manyF] at hnil
  have hwords := commandWords_plain_quoteWord (by decide) (List.all_eq_true.1 hword) hne hnumber "1"
  simp only [asked, farWindow, hwords, find?_disasm, if_neg (show "disasm" ≠ parseErrorWord by decide),
    Option.map_some]

theorem names_manyF (n : Nat) :
    Names (Text.manyF (n + 1)) "1" (Text.ofDigits 16 (List.replicate (n + 1) 15)) 1 where
  reads_start := Text.readLiteral_manyF n
  reads_count := by decide +kernel
  operand_start := markWord_of_undashed (by decide) (by simp [Text.begins, Text.manyF, List.isPrefixOf])
  operand_count := by decide +kernel

/-! ### Lines -/

/-- **What a `disasm` line shows.** Take any session that lines lead to from one without an engine, and let it have
an engine. A line without arguments shows up to 8 chunks one after the other, and the line of one of them, the
current one, has the arrow. A line whose two words name a start, which is not negative, and a count shows the
chunks from this start on, as many as the count says but at least one, as far as there are any: none just if the
start is behind the end of the program. One line has the arrow if the current chunk is among those shown, and else
none. The JSON form has the same chunks. All this is so unless a plain text has to name a start that is too long
to be written; then the line is broken off and nothing is printed. Integers that are not too long are named by the
words that they are written with. -/
theorem listing_window (r : Registry) {s₀ : Session} (hfresh : s₀.engine = none) (entries : List Entry)
    {e : Engine} (he : (sessionAfter r entries s₀).engine = some e) (x : Entry) :
    let s := sessionAfter r entries s₀
    let p := e.code.program
    let line := p.lineOf (some e.current)
    (asked r s x.line = some (.listing, []) →
      ∃ start chunks, (x.reply r s).Lists e start chunks ∧ 1 ≤ chunks.length ∧ chunks.length ≤ 8 ∧
        chunks.map Fin.val = List.range' start.toNat chunks.length ∧
        (chunks.map line).countP hasArrow = 1) ∧
    (∀ a b start count, Names a b start count → 0 ≤ start →
      asked r s x.line = some (.listing, [a, b]) →
      (start < p.chunkCount ∨ s.json = true ∨ Text.writable start = true →
        (x.reply r s).Lists e start (p.shown start count)) ∧
      (p.chunkCount ≤ start → s.json = false → Text.writable start = false →
        (x.reply r s).ended = .escaped .longNumber ∧ (x.reply r s).text = "") ∧
      (p.shown start count = [] ↔ p.chunkCount ≤ start) ∧
      ((p.shown start count).map line).countP hasArrow =
        if start ≤ e.current ∧ e.current < start + max 1 count then 1 else 0) ∧
    (∀ k, hasArrow (line k) = true ↔ e.current = k) ∧
    ∀ start count, Text.writable start = true → Text.writable count = true →
      Names (toString start) (toString count) start count := by
  intro s p line
  have hplaced : e.Placed := by
    have hnone : s₀.Placed := fun e he => by rw [hfresh] at he; cases he
    exact sessionAfter_placed r entries hnone e he
  have hreply {words : List String} (hasked : asked r s x.line = some (.listing, words)) :
      x.reply r s = listing s words := dispatch_of_asked hasked
  refine ⟨fun hasked => ?_, fun a b start count hnames hstart hasked => ?_, fun k => ?_, ?_⟩
  · obtain ⟨hnonneg, hlt, hsome, hfew, hinside⟩ := shown_around hplaced
    refine ⟨askedStart e {}, askedChunks e {}, ?_, hsome, hfew, Program.map_val_shown hnonneg, ?_⟩
    · rw [hreply hasked]
      exact listing_lists parse_nothing he hnonneg (.inl hlt)
    · exact (Program.countP_shown hplaced.current_nonneg hplaced.current_lt).trans (if_pos hinside)
  · rw [hreply hasked]
    refine ⟨listing_lists hnames.parse he hstart, fun hbehind hplain hlong => ?_,
      Program.shown_eq_nil_iff hstart,
      Program.countP_shown hplaced.current_nonneg hplaced.current_lt⟩
    rw [listing_broken_off hnames.parse he hstart hbehind hplain hlong]
    exact ⟨rfl, rfl⟩
  · rw [p.hasArrow_lineOf, Option.some.injEq]
  · exact fun start count => names_toString

/-- Both chunks of a program are shown, then the second one only, and a start of 3600 digits in base sixteen
breaks the line off. -/
theorem listing_window_far : ∃ e, farLoaded.engine = some e ∧
    (∃ start chunks, ((⟨"disasm", oneFile, 0⟩ : Entry).reply registry farLoaded).Lists e start chunks ∧
      (chunks.map (e.code.program.lineOf (some e.current))).countP hasArrow = 1) ∧
    ((⟨"disasm 1 -3", oneFile, 0⟩ : Entry).reply registry farLoaded).Lists e 1
      (e.code.program.shown 1 (-3)) ∧
    ((farWindow 3600).reply registry farLoaded).ended = .escaped .longNumber := by
  have hcount : farLoaded.engine.map (fun e => e.code.program.chunkCount) = some 2 := by
    decide +kernel
  obtain ⟨e, he, hcount⟩ := Option.map_eq_some_iff.1 hcount
  have hfresh : (freshSession (Port.ofBuffer []) false (.number 5)).engine = none := rfl
  have hwindow := listing_window registry hfresh [loading] he
  have haround : asked registry farLoaded "disasm" = some (.listing, []) := by decide +kernel
  have hone : asked registry farLoaded "disasm 1 -3" = some (.listing, ["1", "-3"]) := by decide +kernel
  have hwritten : Text.writable 1 = true ∧ Text.writable (-3) = true := by decide +kernel
  have hnames : Names "1" "-3" 1 (-3) := names_toString hwritten.1 hwritten.2
  have hlong : Text.writable (Text.ofDigits 16 (List.replicate (3599 + 1) 15) : Int) = false :=
    Text.writable_manyF (by decide +kernel)
  refine ⟨e, he, ?_, ?_, ?_⟩
  · obtain ⟨start, chunks, hlists, -, -, -, harrow⟩ := (hwindow ⟨"disasm", oneFile, 0⟩).1 haround
    exact ⟨start, chunks, hlists, harrow⟩
  · exact ((hwindow ⟨"disasm 1 -3", oneFile, 0⟩).2.1 _ _ _ _ hnames (by decide) hone).1
      (.inl (by rw [hcount]; decide))
  · have hbehind : (e.code.program.chunkCount : Int) ≤
        (Text.ofDigits 16 (List.replicate (3599 + 1) 15) : Nat) := by
      rw [hcount]
      exact Int.ofNat_le.2 (Text.two_le_manyF 3599)
    exact ((hwindow (farWindow (3599 + 1))).2.1 _ _ _ _ (names_manyF 3599) (Int.natCast_nonneg _)
      (asked_farWindow _)).2.1 hbehind (by decide +kernel) hlong |>.1

end Debugger

end ChunkMachine
