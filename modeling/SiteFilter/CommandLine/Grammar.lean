import SiteFilter.Text.DecimalDigit
import SiteFilter.Text.Quoted

/-!
# Reading arguments

How a list of arguments is divided into options and operands. Options with long names can be
shortened as long as that leaves one choice, options with short names can stand together behind one
dash, and everything behind a double dash is an operand. A grammar has at most one operand, and it
is either a single word or a command that takes all arguments behind it.
-/

namespace SiteFilter.CommandLine

inductive OptionKind
  /-- A request for help. -/
  | help
  | flag
  /-- A value that follows. -/
  | value
deriving DecidableEq

structure Opt where
  kind : OptionKind
  names : List Text
deriving DecidableEq

inductive Operand
  | nothing
  | word (name : Text)
  | command (name : Text) (choices : List Text)
deriving DecidableEq

structure Grammar where
  program : Text
  options : List Opt
  operand : Operand

inductive Misuse
  | ambiguous (argument : Text) (candidates : List Text)
  | needsNoValue (names : List Text) (value : Text)
  | needsValue (names : List Text)
  | operandMissing (name : Text)
  | unknownCommand (name : Text) (given : Text) (choices : List Text)
  | unrecognized (arguments : List Text)
deriving DecidableEq

inductive Refusal
  /-- Help is asked for. -/
  | help
  | misuse (program : Text) (misuse : Misuse)
deriving DecidableEq

structure Parsed where
  /-- The options given, in their order, each with its value if it has one. -/
  given : List (Opt × Option Text)
  /-- The arguments of the operand. -/
  operand : Option (List Text)
  /-- Arguments that nothing takes. -/
  extra : List Text

def dash : CodePoint :=
  CodePoint.ofChar '-'

/-- The argument behind which there are no options. -/
def doubleDash : Text :=
  [dash, dash]

namespace Misuse

/-- The names of an option between slashes. -/
def optionName (names : List Text) : Text :=
  Text.join (Text.ofString "/") names

def message : Misuse → Text
  | ambiguous argument candidates =>
      Text.ofString "ambiguous option: " ++ argument ++ Text.ofString " could match "
        ++ Text.join (Text.ofString ", ") candidates
  | needsNoValue names value =>
      Text.ofString "argument " ++ optionName names ++ Text.ofString ": ignored explicit argument "
        ++ value.quoted
  | needsValue names =>
      Text.ofString "argument " ++ optionName names ++ Text.ofString ": expected one argument"
  | operandMissing name =>
      Text.ofString "the following arguments are required: " ++ name
  | unknownCommand name given choices =>
      Text.ofString "argument " ++ name ++ Text.ofString ": invalid choice: " ++ given.quoted
        ++ Text.ofString " (choose from "
        ++ Text.join (Text.ofString ", ") (choices.map Text.quoted) ++ Text.ofString ")"
  | unrecognized arguments =>
      Text.ofString "unrecognized arguments: " ++ Text.join (Text.ofString " ") arguments

end Misuse

/-- What an argument is taken for, before its place is looked at. -/
inductive Shape
  | operand
  | separator
  /-- An option, unless it is unknown, with the name it was given by and the value behind that. -/
  | option (option : Option Opt) (name : Text) (value : Option Text)
deriving DecidableEq

/-- Whether an argument spells a negative number; a line feed may end it. -/
def isNegativeNumber (argument : Text) : Bool :=
  let body :=
    if argument.getLast? = some (CodePoint.ofChar '\n') then argument.dropLast else argument
  match body with
  | c :: number =>
      let isDigit (c : CodePoint) : Bool := c.decimalValue?.isSome
      let whole := number.takeWhile isDigit
      let rest := number.dropWhile isDigit
      c = dash
        && ((!whole.isEmpty && rest.isEmpty)
          || (match rest with
              | point :: fraction =>
                  point.val = 0x2E && !fraction.isEmpty && fraction.all isDigit
              | [] => false))
  | [] => false

namespace Grammar

def option? (grammar : Grammar) (name : Text) : Option Opt :=
  grammar.options.find? fun option => option.names.contains name

def names (grammar : Grammar) : List Text :=
  grammar.options.flatMap (·.names)

/-- The options that a shortened argument can mean: the names, and the values behind them. -/
def candidates (grammar : Grammar) (argument : Text) : List (Text × Option Text) :=
  if argument.startsWith doubleDash then
    let (name, value) :=
      match Text.cut? [CodePoint.ofChar '='] argument with
      | some (name, value) => (name, some value)
      | none => (argument, none)
    (grammar.names.filter fun full => Text.startsWith full name).map fun full => (full, value)
  else
    grammar.names.filterMap fun full =>
      if full = argument.take 2 then some (full, some (argument.drop 2))
      else if Text.startsWith full argument then some (full, none)
      else none

def shape (grammar : Grammar) (argument : Text) : Except Misuse Shape :=
  match argument with
  | [] => .ok .operand
  | [_] => .ok .operand
  | c :: _ =>
      if c ≠ dash then .ok .operand
      else
        match grammar.option? argument with
        | some option => .ok (.option (some option) argument none)
        | none =>
            let exact :=
              (Text.cut? [CodePoint.ofChar '='] argument).bind fun (name, value) =>
                (grammar.option? name).map fun option =>
                  Shape.option (some option) name (some value)
            match exact with
            | some shape => .ok shape
            | none =>
                match grammar.candidates argument with
                | [(name, value)] => .ok (.option (grammar.option? name) name value)
                | [] =>
                    if isNegativeNumber argument || argument.contains (CodePoint.ofChar ' ') then
                      .ok .operand
                    else .ok (.option none argument none)
                | several => .error (.ambiguous argument (several.map (·.1)))

def shapes (grammar : Grammar) : List Text → Except Misuse (List (Text × Shape))
  | [] => .ok []
  | argument :: arguments =>
      if argument = doubleDash then
        .ok ((argument, .separator) :: arguments.map fun rest => (rest, .operand))
      else
        match grammar.shape argument with
        | .error misuse => .error misuse
        | .ok shape => (grammar.shapes arguments).map ((argument, shape) :: ·)

end Grammar

abbrev Shaped := Text × Shape

def isOption (argument : Shaped) : Bool :=
  match argument.2 with
  | .option _ _ _ => true
  | _ => false

/-- The arguments that an operand takes from the front, and what is left; none when it cannot be. -/
def takeOperand (operand : Operand) (arguments : List Shaped) :
    Option (List Text × List Shaped) :=
  let separators := arguments.takeWhile (·.2 = .separator)
  match arguments.drop separators.length with
  | [] => none
  | first :: rest =>
      if isOption first then none
      else
        let texts (taken : List Shaped) : List Text := taken.map (·.1)
        match operand with
        | .nothing => none
        | .command _ _ => some (texts (separators ++ first :: rest), [])
        | .word _ =>
            let more := rest.takeWhile (·.2 = .separator)
            some (texts (separators ++ first :: more), rest.drop more.length)

/-- The value that an option was given. The double dash is none. -/
def optionValue (value : Text) : Option Text :=
  if value = doubleDash then none else some value

/--
Takes options that stand behind one dash: `option` by its `name` with what follows it in the same
argument. `fuel` bounds their number.
-/
def takeJoined (grammar : Grammar) :
    (fuel : Nat) → List (Opt × Option Text) → Opt → (name value : Text) →
      Except Refusal (List (Opt × Option Text) × Option (Opt × Text))
  | 0, done, option, name, _ => .ok (done, some (option, name))
  | fuel + 1, done, option, name, value =>
      let refuse := Except.error (.misuse grammar.program (.needsNoValue option.names value))
      if option.kind = .value then .ok (done ++ [(option, optionValue value)], none)
      else if name.startsWith doubleDash then refuse
      else
        match value with
        | [] => refuse
        | letter :: rest =>
            match grammar.option? [dash, letter] with
            | none => refuse
            | some next =>
                let done := done ++ [(option, none)]
                if rest.isEmpty then .ok (done, some (next, [dash, letter]))
                else takeJoined grammar fuel done next [dash, letter] rest

/-- Takes an option whose value, if it needs one, is the next argument. -/
def takeSeparate (grammar : Grammar) (option : Opt) (arguments : List Shaped) :
    Except Refusal ((Opt × Option Text) × List Shaped) :=
  if option.kind = .value then
    match arguments with
    | (value, .operand) :: rest => .ok ((option, optionValue value), rest)
    | _ => .error (.misuse grammar.program (.needsValue option.names))
  else .ok ((option, none), arguments)

/-- Takes options, unless one of them asks for help. -/
def record (parsed : Parsed) (options : List (Opt × Option Text)) : Except Refusal Parsed :=
  if options.any (·.1.kind = .help) then .error .help
  else .ok { parsed with given := parsed.given ++ options }

def takeOption (grammar : Grammar) (parsed : Parsed) (argument : Text) (option : Option Opt)
    (name : Text) (value : Option Text) (rest : List Shaped) :
    Except Refusal (Parsed × List Shaped) := do
  match option with
  | none => return ({ parsed with extra := parsed.extra ++ [argument] }, rest)
  | some option =>
      let (done, last) ←
        match value with
        | none => pure ([], some (option, name))
        | some value => takeJoined grammar (value.length + 1) [] option name value
      match last with
      | none => return (← record parsed done, rest)
      | some (option, _) =>
          let (taken, rest) ← takeSeparate grammar option rest
          return (← record parsed (done ++ [taken]), rest)

def takeOpenOperand (grammar : Grammar) (parsed : Parsed) (arguments : List Shaped) :
    Option (Parsed × List Shaped) :=
  match parsed.operand with
  | some _ => none
  | none =>
      (takeOperand grammar.operand arguments).map fun (taken, rest) =>
        ({ parsed with operand := some taken }, rest)

/-- Takes arguments from the front one after another; `fuel` bounds their number. -/
def takeAll (grammar : Grammar) : (fuel : Nat) → Parsed → List Shaped → Except Refusal Parsed
  | 0, parsed, _ => .ok parsed
  | fuel + 1, parsed, arguments =>
      match arguments with
      | [] => .ok parsed
      | (argument, shape) :: rest =>
          match shape with
          | .option option name value =>
              match takeOption grammar parsed argument option name value rest with
              | .error refusal => .error refusal
              | .ok (parsed, rest) => takeAll grammar fuel parsed rest
          | _ =>
              match takeOpenOperand grammar parsed arguments with
              | some (parsed, rest) => takeAll grammar fuel parsed rest
              | none =>
                  takeAll grammar fuel { parsed with extra := parsed.extra ++ [argument] } rest

/-- What the arguments say by a grammar; the operand may be missing. -/
def Grammar.read (grammar : Grammar) (arguments : List Text) : Except Refusal Parsed := do
  match grammar.shapes arguments with
  | .error misuse => throw (.misuse grammar.program misuse)
  | .ok shaped => takeAll grammar (shaped.length + 1) ⟨[], none, []⟩ shaped

def Grammar.missing? (grammar : Grammar) (parsed : Parsed) : Option Refusal :=
  match grammar.operand, parsed.operand with
  | .word name, none => some (.misuse grammar.program (.operandMissing name))
  | .command name _, none => some (.misuse grammar.program (.operandMissing name))
  | _, _ => none

end SiteFilter.CommandLine
