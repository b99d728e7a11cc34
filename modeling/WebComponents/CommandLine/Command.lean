import WebComponents.CommandLine.Arguments
import WebComponents.Path.Basic
import WebComponents.Scaffold.FileKind
import WebComponents.Text.Pieces

/-!
# Commands

The program has four commands.  Each reads its words by a grammar of its own and then checks the
values: a path is not empty, and a requested kind of file is one of the known ones.
-/

namespace WebComponents.CommandLine

open Scaffold

/-- The shells for which completions are written. -/
inductive Shell where
  | bash
  | elvish
  | fish
  | powershell
  | zsh
  deriving DecidableEq, Repr

/-- The shell with the given name. -/
def Shell.ofText? : String → Option Shell
  | "bash" => some .bash
  | "elvish" => some .elvish
  | "fish" => some .fish
  | "powershell" => some .powershell
  | "zsh" => some .zsh
  | _ => none

/-- A command with its values; a tag or kinds that are missing are asked for. -/
inductive Command where
  | generate (input? : Option String) (kinds? : Option (List FileKind)) (config : Path)
  | types (metadata : Path) (output? : Option Path)
  | redirectImports (files : List Path) (typings? : Option Path) (config : Path)
  | completions (shell : Shell)
  deriving DecidableEq, Repr

/-- What the words after the program's name ask for. -/
inductive Invocation where
  | command (command : Command)
  | help
  | version
  | unusable
  deriving DecidableEq, Repr

/-! ## Values -/

/-- A path that is not empty. -/
def path? (text : String) : Option Path :=
  if text = "" then none else some ⟨text⟩

/-- The configuration file, by default in the working directory. -/
def configPath? (arguments : Arguments) : Option Path :=
  match arguments.values? "config" with
  | some [text] => path? text
  | _ => some ⟨"kiln.toml"⟩

/-- The path of a flag that may be missing; the outer option tells whether it can be used. -/
def optionalPath? (arguments : Arguments) (long : String) : Option (Option Path) :=
  match arguments.values? long with
  | some [text] => (path? text).map some
  | _ => some none

/-- The kinds of files that texts separated by commas ask for. -/
def kinds? (texts : List String) : Option (List FileKind) :=
  (texts.flatMap fun text => Text.split (· == ',') text.toList).mapM fun s =>
    FileKind.ofText? (String.ofList s)

/-! ## The commands -/

/-- The flag for the configuration file. -/
def configFlag : Flag := ⟨"config", some 'c', false⟩

/-- The command that generates a component. -/
def generateCommand? (arguments : Arguments) : Option Command := do
  let config ← configPath? arguments
  match arguments.values? "files" with
  | none => return .generate arguments.positionals.head? none config
  | some texts => return .generate arguments.positionals.head? (some (← kinds? texts)) config

/-- The values of the command for type records, as far as they are given. -/
def typesCommand? (arguments : Arguments) : Option Command := do
  let output? ← optionalPath? arguments "output"
  match arguments.positionals with
  | [metadata] => return .types (← path? metadata) output?
  | _ => none

/-- The command that redirects the imports of declaration files. -/
def redirectCommand? (arguments : Arguments) : Option Command := do
  let config ← configPath? arguments
  let typings? ← optionalPath? arguments "core-dts"
  let files ← arguments.positionals.mapM path?
  if files.isEmpty then none else return .redirectImports files typings? config

/-- The command that writes completions. -/
def completionsCommand? (arguments : Arguments) : Option Command :=
  match arguments.positionals with
  | [shell] => (Shell.ofText? shell).map .completions
  | _ => none

/-- A command's grammar and its reading of the words; `complete` tells whether the words so far have
usable values, whatever else is missing. -/
structure CommandSyntax where
  grammar : Grammar
  command? : Arguments → Option Command
  usable : Arguments → Bool

/-- The invocation that words ask of a command. -/
def CommandSyntax.invocation (rules : CommandSyntax) (words : List String) : Invocation :=
  match rules.grammar.read words with
  | .arguments arguments =>
    match rules.command? arguments with
    | some command => .command command
    | none => .unusable
  | .help before => if rules.usable before then .help else .unusable
  | .unusable => .unusable

/-- Whether all paths that are given can be used. -/
def pathsUsable (longs : List String) (arguments : Arguments) : Bool :=
  longs.all fun long => (optionalPath? arguments long).isSome

/-- Generating a component. -/
def generateSyntax : CommandSyntax where
  grammar := ⟨[⟨"files", some 'f', true⟩, configFlag], some 1⟩
  command? := generateCommand?
  usable arguments := (generateCommand? arguments).isSome

/-- Writing type records. -/
def typesSyntax : CommandSyntax where
  grammar := ⟨[⟨"output", some 'o', false⟩], some 1⟩
  command? := typesCommand?
  usable arguments :=
    pathsUsable ["output"] arguments && arguments.positionals.all fun text => text ≠ ""

/-- Redirecting the imports of declaration files. -/
def redirectSyntax : CommandSyntax where
  grammar := ⟨[⟨"core-dts", none, false⟩, configFlag], none⟩
  command? := redirectCommand?
  usable arguments :=
    pathsUsable ["core-dts", "config"] arguments &&
      arguments.positionals.all fun text => text ≠ ""

/-- Writing completions. -/
def completionsSyntax : CommandSyntax where
  grammar := ⟨[], some 1⟩
  command? := completionsCommand?
  usable arguments := arguments.positionals.all fun text => (Shell.ofText? text).isSome

/-- The command with the given name. -/
def syntaxOf? : String → Option CommandSyntax
  | "generate" | "g" => some generateSyntax
  | "types" => some typesSyntax
  | "rewrite-dts" => some redirectSyntax
  | "completions" => some completionsSyntax
  | _ => none

/-- Whether a word asks for help before any command is named. -/
def asksHelp (word : String) : Bool :=
  word == "--help" || ['-', 'h'].isPrefixOf word.toList

/-- Whether a word asks for the version. -/
def asksVersion (word : String) : Bool :=
  word == "--version" || ['-', 'V'].isPrefixOf word.toList

/-- The invocation that a call for help with the commands of the given names is. -/
def helpInvocation : List String → Invocation
  | [] => .help
  | [name] => if name = "help" ∨ (syntaxOf? name).isSome then .help else .unusable
  | _ => .unusable

/-- The invocation that the words after the program's name ask for. -/
def Invocation.ofWords : List String → Invocation
  | [] => .unusable
  | word :: words =>
    if word = "help" then helpInvocation words
    else if asksHelp word then .help
    else if asksVersion word then .version
    else
      match syntaxOf? word with
      | some rules => rules.invocation words
      | none => .unusable

end WebComponents.CommandLine
