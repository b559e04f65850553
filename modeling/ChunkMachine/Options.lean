import ChunkMachine.Text.Begins
import ChunkMachine.Text.Integer
import ChunkMachine.Text.Quoted

/-!
# Options and operands

A command takes switches, which begin with a dash, and operands, which do not. A `Spec` lists both.
Parsing goes through the words from left to right: a switch takes the word after it if it needs one,
and a run of operands is handed out to the operands that are still open, as far as it goes.

* A switch may be written with its value: `--seed=5`, `-c5`, `-c=5`. What follows a switch of one
  letter that takes no value is read as further switches of one letter.
* A long switch may be cut short if the spec says so and only one switch begins like that.
* A negative number is an operand, and so is a word with a space that is no switch.
* After the word `--` every word is an operand; that word itself is dropped. It is dropped as the value
  of a switch too: `--seed=--` leaves the switch with a blank value.

What fits nowhere is left over: `parseKnown` returns it, `parse` refuses it.
-/

namespace ChunkMachine.Options

/-- How the text of a value is read. -/
inductive Reading where
  | text
  | decimal
  | literal
deriving DecidableEq

/-- The name of a reading in messages. -/
def Reading.kind : Reading → String
  | .text => "str"
  | .decimal => "int"
  | .literal => "<lambda>"

/-- What a switch or an operand was given. -/
inductive Value where
  | on
  | text (s : String)
  | int (i : Int)
  | words (l : List String)
  /-- The value was dropped. -/
  | blank
deriving DecidableEq

/-- How many words an operand takes. -/
inductive Arity where
  /-- One word, which must be there. -/
  | one
  /-- One word or none. -/
  | optional
  /-- A word and everything after it. -/
  | onward
deriving DecidableEq

/-- An operand of a command. -/
structure Operand where
  name : String
  arity : Arity
  reading : Reading := .text
  help : String := ""
deriving DecidableEq

/-- What a switch does. -/
inductive Effect where
  /-- It is noted. -/
  | turnOn
  /-- Its value is noted; a later one counts. -/
  | store (reading : Reading)
  /-- Its values are noted in order. -/
  | collect
  /-- The help of the command is asked for. -/
  | showHelp
deriving DecidableEq

/-- Does a switch take a value? -/
def Effect.takesValue : Effect → Bool
  | .store _ | .collect => true
  | .turnOn | .showHelp => false

/-- A switch of a command. -/
structure Switch where
  spellings : List String
  /-- The name under which its value is noted. -/
  key : String
  effect : Effect
  help : String := ""
deriving DecidableEq

/-- What a command takes. -/
structure Spec where
  command : String
  description : String := ""
  switches : List Switch := []
  operands : List Operand := []
  /-- May long switches be cut short? -/
  abbreviates : Bool := true
deriving DecidableEq

/-- Why there are no values. -/
inductive Refusal where
  /-- The words do not fit the spec. -/
  | usage (message : String)
  /-- The help of the command is asked for. -/
  | help
deriving DecidableEq

/-- The values that were given, in order, and the words that fit nowhere. -/
structure Parsed where
  values : List (String × Value) := []
  extras : List String := []
deriving DecidableEq

namespace Parsed

/-- Note a value. -/
def add (p : Parsed) (key : String) (value : Value) : Parsed :=
  { p with values := p.values ++ [(key, value)] }

/-- Leave a word over. -/
def leave (p : Parsed) (word : String) : Parsed := { p with extras := p.extras ++ [word] }

/-- The last value under a key. -/
def last? (p : Parsed) (key : String) : Option Value := p.values.reverse.lookup key

/-- The text under a key. -/
def text? (p : Parsed) (key : String) : Option String :=
  match p.last? key with
  | some (.text s) => some s
  | _ => none

/-- The integer under a key. -/
def int? (p : Parsed) (key : String) : Option Int :=
  match p.last? key with
  | some (.int i) => some i
  | _ => none

/-- The words under a key. -/
def words? (p : Parsed) (key : String) : Option (List String) :=
  match p.last? key with
  | some (.words l) => some l
  | _ => none

/-- Was the switch with a key given? -/
def isOn (p : Parsed) (key : String) : Bool := (p.last? key).isSome

/-- Was the last value under a key dropped? -/
def isBlank (p : Parsed) (key : String) : Bool := p.last? key = some .blank

/-- The texts collected under a key, in order; `none` for one that was dropped. -/
def texts (p : Parsed) (key : String) : List (Option String) :=
  p.values.filterMap fun (k, value) =>
    match value with
    | .text s => if k = key then some (some s) else none
    | .blank => if k = key then some none else none
    | _ => none

end Parsed

/-! ### Recognising switches -/

/-- A switch found in a word. -/
structure Hit where
  switch : Switch
  spelling : String
  /-- The value written in the same word. -/
  value : Option String
deriving DecidableEq

/-- What a word is. -/
inductive Mark where
  | operand
  /-- The word `--`. -/
  | dashes
  /-- A switch that the spec does not have. -/
  | unknown
  | hit (h : Hit)
deriving DecidableEq

namespace Spec

/-- Every spelling with its switch. -/
def spellings (s : Spec) : List (String × Switch) :=
  s.switches.flatMap fun switch => switch.spellings.map (·, switch)

/-- The switch with a spelling. -/
def find? (s : Spec) (spelling : String) : Option Switch := s.spellings.lookup spelling

end Spec

/-- A word cut at its first equals sign. -/
def cutAtSign (word : String) : String × Option String :=
  let cs := word.toList
  match cs.dropWhile (· != '=') with
  | _ :: rest => (String.ofList (cs.takeWhile (· != '=')), some (String.ofList rest))
  | [] => (word, none)

/-- Does the word look like a negative number? A line end after it does not count. -/
def isNegativeNumber (word : String) : Bool :=
  match word.toList with
  | '-' :: cs =>
    let digits := if cs.getLast? = some '\n' then cs.dropLast else cs
    let whole := digits.takeWhile Text.isDigit
    match digits.dropWhile Text.isDigit with
    | [] => !whole.isEmpty
    | '.' :: fraction => !fraction.isEmpty && fraction.all Text.isDigit
    | _ => false
  | _ => false

/-- The switches that a word which spells none may mean. -/
def candidates (s : Spec) (word : String) : List Hit :=
  if Text.begins "--" word then
    let (front, value) := cutAtSign word
    if s.abbreviates then
      (s.spellings.filter fun (spelling, _) => Text.begins front spelling).map
        fun (spelling, switch) => ⟨switch, spelling, value⟩
    else []
  else
    let short := String.ofList (word.toList.take 2)
    s.spellings.filterMap fun (spelling, switch) =>
      if spelling = short then
        some ⟨switch, spelling, some (String.ofList (word.toList.drop 2))⟩
      else if Text.begins word spelling then some ⟨switch, spelling, none⟩
      else none

/-- What a word is that begins with a dash and is no switch as it stands. -/
def markDashed (s : Spec) (word : String) : Except Refusal Mark :=
  let (front, value) := cutAtSign word
  match value, s.find? front with
  | some v, some switch => .ok (.hit ⟨switch, front, some v⟩)
  | _, _ =>
    match candidates s word with
    | [h] => .ok (.hit h)
    | [] =>
      if isNegativeNumber word || word.toList.contains ' ' then .ok .operand else .ok .unknown
    | hits =>
      .error (.usage ("ambiguous option: " ++ word ++ " could match " ++
        ", ".intercalate (hits.map Hit.spelling)))

/-- What a word is, before the word `--`. -/
def markWord (s : Spec) (word : String) : Except Refusal Mark :=
  match s.find? word with
  | some switch => .ok (.hit ⟨switch, word, none⟩)
  | none =>
    if Text.begins "-" word && word != "-" then markDashed s word else .ok .operand

/-- What each word is. -/
def mark (s : Spec) : List String → Except Refusal (List (String × Mark))
  | [] => .ok []
  | word :: words =>
    if word = "--" then .ok ((word, .dashes) :: words.map (·, .operand))
    else do
      let m ← markWord s word
      let rest ← mark s words
      return (word, m) :: rest

/-! ### Taking switches -/

/-- A complaint about a switch or an operand. -/
def complaint (name message : String) : Refusal := .usage ("argument " ++ name ++ ": " ++ message)

/-- The name of a switch in complaints. -/
def Switch.label (s : Switch) : String := "/".intercalate s.spellings

/-- Read the text of a value. -/
def Reading.read (r : Reading) (name text : String) : Except Refusal Value :=
  let refuse := .error (complaint name ("invalid " ++ r.kind ++ " value: " ++ Text.quoted text))
  match r with
  | .text => .ok (.text text)
  | .decimal => (Text.readDecimal text).elim refuse fun i => .ok (.int i)
  | .literal => (Text.readLiteral text).elim refuse fun i => .ok (.int i)

/-- Read the text of a value of a switch. The word `--` is dropped. -/
def Reading.readOrDrop (r : Reading) (name text : String) : Except Refusal Value :=
  if text = "--" then .ok .blank else r.read name text

/-- What a hit amounts to: switches with their values, and whether the next word was taken as a
value. -/
structure Taken where
  switches : List (Switch × String)
  tookNext : Bool := false

/-- A switch without a value in its own word takes the next word, if it needs a value. -/
def takeNext (next : Option String) (switch : Switch) : Except Refusal Taken :=
  if switch.effect.takesValue then
    match next with
    | some word => .ok { switches := [(switch, word)], tookNext := true }
    | none => .error (complaint switch.label "expected one argument")
  else .ok { switches := [(switch, "")] }

/-- The complaint about a value that a switch has no use for. -/
def ignoredValue (switch : Switch) (value : List Char) : Refusal :=
  complaint switch.label ("ignored explicit argument " ++ Text.quoted (String.ofList value))

/-- A switch with a value in its own word. If the switch takes none, the value of a one-letter switch
is read as further switches. -/
def takeValue (s : Spec) (next : Option String) :
    Switch → (short : Bool) → (value : List Char) → Except Refusal Taken
  | switch, _, [] =>
    if switch.effect.takesValue then .ok { switches := [(switch, "")] }
    else .error (ignoredValue switch [])
  | switch, short, c :: rest =>
    if switch.effect.takesValue then .ok { switches := [(switch, String.ofList (c :: rest))] }
    else if !short then .error (ignoredValue switch (c :: rest))
    else
      match s.find? (String.ofList ['-', c]) with
      | none => .error (ignoredValue switch (c :: rest))
      | some other =>
        let taken := match rest with
          | [] => takeNext next other
          | d :: value => takeValue s next other true (d :: value)
        taken.map fun t => { t with switches := (switch, "") :: t.switches }

/-- Follow a hit. -/
def takeHit (s : Spec) (next : Option String) (h : Hit) : Except Refusal Taken :=
  match h.value with
  | none => takeNext next h.switch
  | some value =>
    takeValue s next h.switch (!Text.begins "--" h.spelling) value.toList

/-- Note what a switch was given. -/
def apply (p : Parsed) (given : Switch × String) : Except Refusal Parsed :=
  let (switch, text) := given
  match switch.effect with
  | .showHelp => .error .help
  | .turnOn => .ok (p.add switch.key .on)
  | .collect => (Reading.text.readOrDrop switch.label text).map (p.add switch.key)
  | .store reading => (reading.readOrDrop switch.label text).map (p.add switch.key)

/-! ### Taking operands -/

/-- The words `--` at the front, and what follows. -/
def spanDashes (xs : List (String × Mark)) : List String × List (String × Mark) :=
  ((xs.takeWhile fun x => x.2 = .dashes).map (·.1), xs.dropWhile fun x => x.2 = .dashes)

/-- The words that an operand takes, and what follows. -/
def Arity.take (a : Arity) (xs : List (String × Mark)) :
    Option (List String × List (String × Mark)) :=
  let (before, xs) := spanDashes xs
  match a, xs with
  | .onward, (word, .operand) :: rest => some (before ++ word :: rest.map (·.1), [])
  | .onward, _ => none
  | _, (word, .operand) :: rest =>
    let (after, rest) := spanDashes rest
    some (before ++ word :: after, rest)
  | .optional, rest => some (before, rest)
  | .one, _ => none

/-- Hand a run of words out to the open operands: what each gets, those still open, and the words
that follow. -/
def handOut : List Operand → List (String × Mark) →
    List (Operand × List String) × List Operand × List (String × Mark)
  | [], xs => ([], [], xs)
  | o :: os, xs =>
    match o.arity.take xs with
    | none => ([], o :: os, xs)
    | some (words, rest) =>
      let (given, still, rest) := handOut os rest
      ((o, words) :: given, still, rest)

/-- Note what an operand was given. The word `--` is dropped once, unless
everything from there on is taken. -/
def applyOperand (p : Parsed) (given : Operand × List String) : Except Refusal Parsed :=
  let (o, words) := given
  match o.arity with
  | .onward => .ok (p.add o.name (.words words))
  | _ =>
    match words.erase "--" with
    | [] => .ok p
    | word :: _ => (o.reading.read o.name word).map (p.add o.name)

/-! ### Parsing -/

/-- The value that a switch may take from the words after it. -/
def nextValue : List (String × Mark) → Option String
  | (word, .operand) :: _ => some word
  | _ => none

/-- Go through the words that are left, with the operands that are still open. The operands that stay
open are returned too. -/
def parseFrom (s : Spec) (p : Parsed) (waiting : List Operand) (xs : List (String × Mark)) :
    Except Refusal (Parsed × List Operand) :=
  match xs with
  | [] => .ok (p, waiting)
  | (_, .hit h) :: rest =>
    match takeHit s (nextValue rest) h with
    | .error e => .error e
    | .ok taken =>
      match taken.switches.foldlM apply p with
      | .error e => .error e
      | .ok p => parseFrom s p waiting (if taken.tookNext then rest.tail else rest)
  | (word, .unknown) :: rest => parseFrom s (p.leave word) waiting rest
  | (word, mark) :: rest =>
    let (given, still, after) := handOut waiting ((word, mark) :: rest)
    match given.foldlM applyOperand p with
    | .error e => .error e
    | .ok p =>
      if _h : after.length ≤ rest.length then parseFrom s p still after
      else parseFrom s (p.leave word) still rest
termination_by xs.length
decreasing_by
  all_goals (try split) <;> simp only [List.length_cons, List.length_tail] <;> omega

/-- Parse the words of a command; words that fit nowhere are left over. -/
def parseKnown (s : Spec) (words : List String) : Except Refusal Parsed := do
  let xs ← mark s words
  let (p, still) ← parseFrom s {} s.operands xs
  match (still.filter (·.arity = .one)).map Operand.name with
  | [] => return p
  | missing =>
    .error (.usage ("the following arguments are required: " ++ ", ".intercalate missing))

/-- The complaint about words that fit nowhere. -/
def unrecognized (extras : List String) : Refusal :=
  .usage ("unrecognized arguments: " ++ " ".intercalate extras)

/-- Parse the words of a command; every word must fit. -/
def parse (s : Spec) (words : List String) : Except Refusal Parsed := do
  let p ← parseKnown s words
  if p.extras.isEmpty then return p else .error (unrecognized p.extras)

end ChunkMachine.Options
