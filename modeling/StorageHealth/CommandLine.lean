/-!
# Command lines

Flags that build up settings of any type `σ`.  A `Flag` either takes a value, written `--flag value`
or `--flag=value`, or is a switch that stands alone.  `CommandLine.read` reads the words of a
command line from left to right.

A value that stands in a word of its own waits until the next flag, or the end of the line, shows
that it is complete; only then is it read.  A word that nothing can be made of ends reading at once,
so it wins over whatever is wrong with a value that waits.
-/

namespace StorageHealth

/-- What can be wrong with a command line.  Asking for help ends reading like an error does. -/
inductive UsageError where
  | unknownWord
  | missingValue
  | malformedValue
  | repeatedFlag
  | unexpectedValue
  | helpRequested
  deriving DecidableEq, Repr

/-- The text for a faulty command line. -/
def UsageError.message : UsageError → String
  | unknownWord => "unexpected argument"
  | missingValue => "a flag lacks its value"
  | malformedValue => "a value cannot be read"
  | repeatedFlag => "a flag is given twice"
  | unexpectedValue => "a switch takes no value"
  | helpRequested => "help requested"

/-- What a flag does to the settings. -/
inductive FlagEffect (σ : Type) where
  | switch (set : σ → σ)
  | value (read : String → Except UsageError (σ → σ))

/-- A flag by its long name. -/
structure Flag (σ : Type) where
  name : String
  effect : FlagEffect σ

namespace CommandLine

variable {σ : Type}

/-! ### Words -/

/-- What a word can be, before the flags are known. -/
inductive Word where
  | separator
  | long (name : String) (value : Option String)
  | short (names : List Char)
  | plain (text : String)
  deriving DecidableEq, Repr

/-- Tells words apart.  Only the first `=` separates a long flag from its value, and a lone dash is
plain text. -/
def Word.ofString (s : String) : Word :=
  match s.toList with
  | ['-', '-'] => .separator
  | '-' :: '-' :: rest =>
    let name := String.ofList (rest.takeWhile (· ≠ '='))
    match rest.dropWhile (· ≠ '=') with
    | _ :: value => .long name (some (String.ofList value))
    | [] => .long name none
  | '-' :: c :: rest => .short (c :: rest)
  | _ => .plain s

/-- The long name of the flag that asks for help. -/
def helpName : String := "help"

/-- The short name of the flag that asks for help. -/
def helpLetter : Char := 'h'

/-! ### Reading -/

/-- A flag that was met and still waits to be read, with the value that followed it, if any. -/
structure Waiting (σ : Type) where
  name : String
  read : String → Except UsageError (σ → σ)
  value : Option String

/-- How far reading has come. -/
structure Progress (σ : Type) where
  settings : σ
  given : List String
  waiting : Option (Waiting σ)

/-- Enters a flag that must not have been given before. -/
def Progress.enter (p : Progress σ) (name : String) (set : Except UsageError (σ → σ)) :
    Except UsageError (Progress σ) :=
  if name ∈ p.given then .error .repeatedFlag
  else set.map (fun f => { p with settings := f p.settings, given := name :: p.given })

/-- Reads the flag that waits, if any. -/
def Progress.settle (p : Progress σ) : Except UsageError (Progress σ) :=
  match p.waiting with
  | none => .ok p
  | some w =>
    match w.value with
    | none => .error .missingValue
    | some v => Progress.enter { p with waiting := none } w.name (w.read v)

/-- Takes a long flag. -/
def Progress.long (flags : List (Flag σ)) (p : Progress σ) (name : String) (value : Option String) :
    Except UsageError (Progress σ) :=
  match flags.find? (fun f => f.name = name) with
  | some f =>
    match f.effect, value with
    | .switch _, some _ => .error .unexpectedValue
    | .switch set, none => do (← p.settle).enter name (.ok set)
    | .value read, some v => do (← p.settle).enter name (read v)
    | .value read, none => do return { ← p.settle with waiting := some ⟨name, read, none⟩ }
  | none =>
    if name = helpName then
      match value with
      | some _ => .error .unexpectedValue
      | none => do
        let _ ← p.settle
        .error .helpRequested
    else .error .unknownWord

/-- Takes a word that is no flag: the value of the flag that waits for one. -/
def Progress.plain (p : Progress σ) (s : String) : Except UsageError (Progress σ) :=
  match p.waiting with
  | some ⟨name, read, none⟩ => .ok { p with waiting := some ⟨name, read, some s⟩ }
  | _ => .error .unknownWord

/-- Takes the words of a line one after the other.  After a separator no word has a meaning. -/
def readWords (flags : List (Flag σ)) (p : Progress σ) : List Word → Except UsageError σ
  | [] => p.settle.map Progress.settings
  | .separator :: rest =>
    if rest.isEmpty then p.settle.map Progress.settings else .error .unknownWord
  | .long name value :: rest => do readWords flags (← p.long flags name value) rest
  | .short names :: _ =>
    if names.head? = some helpLetter then do
      let _ ← p.settle
      .error .helpRequested
    else .error .unknownWord
  | .plain s :: rest => do readWords flags (← p.plain s) rest

/-- The settings that a command line makes of the given ones. -/
def read (flags : List (Flag σ)) (start : σ) (line : List String) : Except UsageError σ :=
  readWords flags ⟨start, [], none⟩ (line.map Word.ofString)

/-- An empty command line changes nothing. -/
theorem read_nil (flags : List (Flag σ)) (start : σ) : read flags start [] = .ok start := rfl

end CommandLine

end StorageHealth
