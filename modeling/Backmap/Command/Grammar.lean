import Backmap.Numeral
import Backmap.Text.Quoted

/-!
# Command line grammars

Options and operands may come in any order. A long option may be cut short where that leaves no doubt, short
options without values may be run together, a value may follow an option or be joined to it, and `--` ends the
options.
-/

namespace Backmap.Command

/-- What is made of a `--` that does not end the options. -/
inductive Dashes where
  /-- Joined to an option it is the option's value, and before a command it is taken out. -/
  | kept
  /-- Joined to an option it is taken out, which leaves the option with nothing, and before a command it stays. -/
  | dropped
  deriving DecidableEq, Repr

/-- What an option does. -/
inductive Effect where
  | help
  | version
  | count
  /-- Keeps a value that has no objection against it. -/
  | keep (objection : String → Option String)

structure Flag where
  names : List String
  effect : Effect
  required : Bool := false

def Flag.wantsValue (f : Flag) : Bool :=
  match f.effect with
  | .keep _ => true
  | _ => false

/-- What an option goes by in messages. -/
def Flag.title (f : Flag) : String := "/".intercalate f.names

/-- How many operands a command line takes. -/
inductive Operands where
  | optional
  | one
  | many
  /-- A command with all that follows it. -/
  | command
  deriving DecidableEq

structure Grammar where
  program : String
  help : String
  flags : List Flag
  operands : Operands
  /-- What the operand goes by in messages. -/
  operandTitle : String

/-- The first paragraph of the help text. -/
def Grammar.usage (g : Grammar) : String := (g.help.splitOn "\n\n").headD "" ++ "\n"

/-- Why a command line is not carried out. -/
inductive Stop where
  | help (g : Grammar)
  | version
  | misuse (g : Grammar) (text : String)

/-- An option as it was found: which one, the name that led to it, and a value joined to it. -/
structure Hit where
  flag : Flag
  name : String
  value : Option (List Char)

inductive Arg where
  | operand (text : String)
  | separator
  | option (text : String) (hit : Option Hit)

def Arg.text : Arg → String
  | operand text => text
  | separator => "--"
  | option text _ => text

def Arg.isOption : Arg → Bool
  | option _ _ => true
  | _ => false

/-- All names of options, with what they name. -/
def Grammar.names (g : Grammar) : List (String × Flag) :=
  g.flags.flatMap fun f => f.names.map fun n => (n, f)

def Grammar.find? (g : Grammar) (name : String) : Option Flag :=
  (g.names.find? (·.1 == name)).map (·.2)

/-- Cuts a text at its first equals sign. -/
def cutEquals? (cs : List Char) : Option (List Char × List Char) :=
  match cs.dropWhile (· != '=') with
  | [] => none
  | _ :: value => some (cs.takeWhile (· != '='), value)

/-- The options that a text, which is no option's full name, may stand for. -/
def Grammar.candidates (g : Grammar) (cs : List Char) : List Hit :=
  match cs with
  | '-' :: '-' :: _ =>
    let (start, value) := match cutEquals? cs with
      | some (start, value) => (start, some value)
      | none => (cs, none)
    g.names.filterMap fun (n, f) =>
      if start.isPrefixOf n.toList then some ⟨f, n, value⟩ else none
  | _ =>
    g.names.filterMap fun (n, f) =>
      if n.toList = cs.take 2 then some ⟨f, n, some (cs.drop 2)⟩
      else if cs.isPrefixOf n.toList then some ⟨f, n, none⟩
      else none

/-- Whether a text is a negative number, of digits with at most one point that a digit follows. A line feed may
stand at its end. -/
def isNegativeNumber (cs : List Char) : Bool :=
  match cs with
  | '-' :: cs =>
    let cs := if cs.getLast? = some '\n' then cs.dropLast else cs
    match cs.dropWhile Text.isDigit with
    | [] => !cs.isEmpty
    | '.' :: fraction => !fraction.isEmpty && fraction.all Text.isDigit
    | _ => false
  | _ => false

/-- Tells an option from an operand. -/
def Grammar.classify (g : Grammar) (arg : String) : Except Stop Arg :=
  let cs := arg.toList
  if cs.head? ≠ some '-' then .ok (.operand arg)
  else
    match g.find? arg with
    | some f => .ok (.option arg (some ⟨f, arg, none⟩))
    | none =>
      if cs.length = 1 then .ok (.operand arg)
      else
        let joined := (cutEquals? cs).bind fun (name, value) =>
          (g.find? (String.ofList name)).map fun f => Hit.mk f (String.ofList name) (some value)
        match joined with
        | some hit => .ok (.option arg (some hit))
        | none =>
          match g.candidates cs with
          | [hit] => .ok (.option arg (some hit))
          | [] =>
            if isNegativeNumber cs || cs.contains ' ' then .ok (.operand arg)
            else .ok (.option arg none)
          | hits =>
            let names := ", ".intercalate (hits.map Hit.name)
            .error (.misuse g s!"ambiguous option: {arg} could match {names}")

def Grammar.classifyAll (g : Grammar) : List String → Except Stop (List Arg)
  | [] => .ok []
  | "--" :: rest => .ok (.separator :: rest.map .operand)
  | arg :: rest => do
    let a ← g.classify arg
    let as ← g.classifyAll rest
    .ok (a :: as)

/-- What an option was given. -/
inductive Value where
  | text (s : String)
  | nothing
  deriving DecidableEq, Repr

def Value.ofText (dashes : Dashes) (s : String) : Value :=
  if s = "--" ∧ dashes = .dropped then nothing else text s

/-- What a command line says. -/
structure Parsed where
  /-- Values kept, by the last name of their option, in order. -/
  values : List (String × Value) := []
  /-- How often options that only count were given. -/
  counts : List String := []
  operands : Option (List String) := none
  /-- What the grammar has no place for. -/
  extras : List String := []

def Flag.key (f : Flag) : String := f.names.getLast?.getD ""

/-- The last value of an option. -/
def Parsed.value? (p : Parsed) (key : String) : Option Value :=
  (p.values.reverse.find? (·.1 == key)).map (·.2)

def Parsed.count (p : Parsed) (key : String) : Nat := p.counts.count key

/-- A complaint about an option. -/
def Grammar.objectTo (g : Grammar) (f : Flag) (text : String) : Stop :=
  .misuse g s!"argument {f.title}: {text}"

/-- Carries an option out. -/
def Grammar.apply (g : Grammar) (dashes : Dashes) (p : Parsed) (f : Flag) (value : String) : Except Stop Parsed :=
  match f.effect with
  | .help => .error (.help g)
  | .version => .error .version
  | .count => .ok { p with counts := p.counts ++ [f.key] }
  | .keep objection =>
    let v := Value.ofText dashes value
    let found := match v with
      | .text s => objection s
      | .nothing => none
    match found with
    | some text => .error (g.objectTo f text)
    | none => .ok { p with values := p.values ++ [(f.key, v)] }

/-- Options that one argument runs together: those that are complete, and one that may still want a value. -/
structure Run where
  complete : List (Flag × String) := []
  pending : Option Flag := none

/-- A complaint about a value that an option has no use for. -/
def Grammar.ignored (g : Grammar) (f : Flag) (value : List Char) : Stop :=
  let shown := Text.quoted (String.ofList value)
  g.objectTo f s!"ignored explicit argument {shown}"

/-- Takes an option with a value joined to it apart. Behind a short option without a value, each character names
another one. -/
def Grammar.unjoin (g : Grammar) (done : List (Flag × String)) (f : Flag) (name : String) (value : List Char) :
    Except Stop Run :=
  if f.wantsValue then .ok { complete := done ++ [(f, String.ofList value)] }
  else
    match value with
    | [] => .error (g.ignored f [])
    | c :: more =>
      let short := String.ofList ['-', c]
      match if name.toList[1]? = some '-' then none else g.find? short with
      | none => .error (g.ignored f (c :: more))
      | some next =>
        let done := done ++ [(f, "")]
        if more = [] then .ok { complete := done, pending := some next } else g.unjoin done next short more

/-- Carries several options out in turn. -/
def Grammar.applyAll (g : Grammar) (dashes : Dashes) (p : Parsed) : List (Flag × String) → Except Stop Parsed
  | [] => .ok p
  | (f, value) :: rest => do g.applyAll dashes (← g.apply dashes p f value) rest

/-- Carries out an option that stands before `rest`; also tells how many of the arguments behind it it took. -/
def Grammar.takeOption (g : Grammar) (dashes : Dashes) (p : Parsed) (text : String) (hit : Option Hit)
    (rest : List Arg) : Except Stop (Parsed × Nat) :=
  match hit with
  | none => .ok ({ p with extras := p.extras ++ [text] }, 0)
  | some hit => do
    let run : Run ← match hit.value with
      | none => pure { pending := some hit.flag }
      | some value => g.unjoin [] hit.flag hit.name value
    match run.pending with
    | none => .ok (← g.applyAll dashes p run.complete, 0)
    | some f =>
      if f.wantsValue then
        match rest with
        | .operand value :: _ => .ok (← g.applyAll dashes p (run.complete ++ [(f, value)]), 1)
        | _ => .error (g.objectTo f "expected one argument")
      else .ok (← g.applyAll dashes p (run.complete ++ [(f, "")]), 0)

/-- How many of the arguments from here on are operands; nothing if there are too few. -/
def Operands.span (o : Operands) (args : List Arg) : Option Nat :=
  let separators (args : List Arg) : Nat := (args.takeWhile fun a => a matches .separator).length
  let lead := separators args
  match o, args.drop lead with
  | .optional, .operand _ :: rest => some (lead + 1 + separators rest)
  | .optional, _ => some lead
  | .one, .operand _ :: rest => some (lead + 1 + separators rest)
  | .many, .operand _ :: rest => some (lead + 1 + (rest.takeWhile (!·.isOption)).length)
  | .command, .operand _ :: rest => some (lead + 1 + rest.length)
  | _, _ => none

/-- Takes the operands that stand here, if none have been taken; also tells how many arguments they are. -/
def Grammar.takeOperands (g : Grammar) (dashes : Dashes) (p : Parsed) (args : List Arg) : Parsed × Nat :=
  match p.operands with
  | some _ => (p, 0)
  | none =>
    match g.operands.span args with
    | none => (p, 0)
    | some n =>
      let taken := args.take n
      let texts := taken.map Arg.text
      let strip : Bool := match dashes with
        | .kept => if g.operands = .command then taken.head? matches some .separator
          else taken.any (· matches .separator)
        | .dropped => g.operands ≠ .command
      ({ p with operands := some (if strip then texts.erase "--" else texts) }, n)

/-- Reads classified arguments: operands and options in turn up to the last option, then operands. The first
`skip` arguments have been dealt with. -/
def Grammar.readArgs (g : Grammar) (dashes : Dashes) (p : Parsed) (skip : Nat) : List Arg → Except Stop Parsed
  | [] => .ok (g.takeOperands dashes p []).1
  | a :: rest =>
    match skip with
    | skip + 1 => g.readArgs dashes p skip rest
    | 0 =>
      match a with
      | .option text hit => do
        let (p, n) ← g.takeOption dashes p text hit rest
        g.readArgs dashes p n rest
      | _ =>
        let (q, n) := g.takeOperands dashes p (a :: rest)
        if rest.any Arg.isOption then
          match n with
          | n + 1 => g.readArgs dashes q n rest
          | 0 => g.readArgs dashes { p with extras := p.extras ++ [a.text] } 0 rest
        else .ok { q with extras := q.extras ++ ((a :: rest).drop n).map Arg.text }

/-- What a command line lacks. -/
def Grammar.missing (g : Grammar) (p : Parsed) : List String :=
  (if p.operands.isNone && (g.operands = .one || g.operands = .many) then [g.operandTitle] else []) ++
    (g.flags.filter fun f => f.required && (p.value? f.key).isNone).map Flag.title

/-- Reads a command line. What the grammar has no place for is kept apart. -/
def Grammar.read (g : Grammar) (dashes : Dashes) (args : List String) : Except Stop Parsed := do
  let p ← g.readArgs dashes {} 0 (← g.classifyAll args)
  match g.missing p with
  | [] => .ok p
  | names =>
    let names := ", ".intercalate names
    .error (.misuse g s!"the following arguments are required: {names}")

end Backmap.Command
