import Stencil.Demo
import Stencil.Engine
import Stencil.Json.Reader
import Stencil.Value.Document

/-!
# `Stencil.CommandLine`: rendering a folder of templates

The command line renders every template of a folder, and of the folders in it, with one view and
the helpers for invoices. Files are visited in the order of their names, and the contents of a
folder in its place. A file is a template when its name has the extension `mustache`.

What the program prints depends on its arguments and on the files that it finds; both are given
here as data.
-/

set_option autoImplicit false

namespace Stencil

/-- A file or a folder. -/
inductive Node where
  /-- A file with its text, if it can be read as one. -/
  | file (content : Option String)
  /-- A folder with what is in it, by ascending name. -/
  | folder (entries : List (String × Node))
deriving Inhabited

/-- A reason why there is nothing at a path. -/
inductive PathError where
  /-- There is no file or folder of some name. -/
  | missing
  /-- The path goes on after a file. -/
  | notFolder
deriving DecidableEq, Repr, Inhabited

/-- The wording of a path error. -/
def PathError.message : PathError → String
  | missing => "No such file or directory (os error 2)"
  | notFolder => "Not a directory (os error 20)"

namespace Node

/-- Puts a file at a path, given by its names, and makes the folders on the way. -/
def insert (content : String) : List String → Node → Node
  | [], _ => .file (some content)
  | name :: names, node =>
    let entries := match node with
      | .folder entries => entries
      | .file _ => []
    let inner := (valueAt? name entries).getD (.folder [])
    .folder (insertEntry name (inner.insert content names) entries)

/-- The file or folder that a path, given by its names, leads to from a file or folder. The folders
around that are given from the inside to the outside. An empty name and a dot stay in a folder, two
dots go to the one around it, and nothing is known beyond the outermost. -/
def follow (outer : List Node) (node : Node) : List String → Except PathError Node
  | [] => .ok node
  | name :: names =>
    match node with
    | .file _ => .error .notFolder
    | .folder entries =>
      if name = "" || name = "." then node.follow outer names
      else if name = ".." then
        match outer with
        | [] => .error .missing
        | around :: outer => around.follow outer names
      else
        match valueAt? name entries with
        | none => .error .missing
        | some inner => inner.follow (node :: outer) names

/-- The file or folder at a path that starts in a folder. -/
def locate (folder : Node) (path : String) : Except PathError Node :=
  if path.startsWith "/" then .error .missing else folder.follow [] (path.splitOn "/")

/-- The path of a file or folder inside another one. -/
def joinPath (path name : String) : String :=
  if path.toList.getLast? = some '/' then path ++ name else path ++ "/" ++ name

mutual

/-- The files in a file or folder, with their paths, in the order in which they are visited. -/
def files (path : String) : Node → List (String × Option String)
  | .file content => [(path, content)]
  | .folder entries => filesOf path entries

/-- The files in the entries of a folder. -/
def filesOf (path : String) : List (String × Node) → List (String × Option String)
  | [] => []
  | (name, node) :: rest => node.files (joinPath path name) ++ filesOf path rest

end

/-- The folder that holds some files, given by their paths. -/
def ofFiles (files : List (String × String)) : Node :=
  files.foldl (fun root (path, content) => root.insert content (path.splitOn "/")) (.folder [])

end Node

/-- What the program is asked to do, as far as its arguments say so. -/
structure Options where
  /-- The file or folder with the templates. -/
  templates : Option String
  /-- The file with the view. -/
  data : Option String
  /-- The tag of the locale. -/
  locale : Option String
  /-- Whether the output is streamed. -/
  streamed : Bool
deriving Repr, Inhabited

namespace Options

/-- No option is given. -/
def unset : Options := ⟨none, none, none, false⟩

/-- The file or folder with the templates. -/
def templatesPath (o : Options) : String :=
  o.templates.getD "templates"

/-- The tag of the locale. -/
def localeTag (o : Options) : String :=
  o.locale.getD "en-GB"

/-- Gives an option its value. Every option may be given once, and a path is never empty. -/
def set? (o : Options) (name value : String) : Option Options :=
  match name with
  | "--templates" =>
    if o.templates.isSome || value = "" then none else some { o with templates := some value }
  | "--data" =>
    if o.data.isSome || value = "" then none else some { o with data := some value }
  | "--locale" =>
    if o.locale.isSome then none else some { o with locale := some value }
  | _ => none

/-- Whether an argument can be the value of the option before it: it is not an option itself. -/
def isValue (arg : String) : Bool :=
  !arg.startsWith "-" || arg = "-"

/-- Reads the arguments of the program; nothing if it does not understand them. The value of an
option stands in the next argument, or after an equals sign. Two hyphens end the options, and
nothing may come after them. -/
def read? (o : Options) : List String → Option Options
  | [] => some o
  | ["--"] => some o
  | "--async" :: rest => if o.streamed then none else { o with streamed := true }.read? rest
  | arg :: rest =>
    -- A value after an equals sign may look like an option, the next argument may not.
    match arg.splitOn "=", rest with
    | [_], [] => none
    | [name], value :: rest =>
      if isValue value then (o.set? name value).bind fun o => o.read? rest else none
    | name :: parts, rest =>
      (o.set? name (String.intercalate "=" parts)).bind fun o => o.read? rest
    | [], _ => none

/-- The options that the arguments of the program give. -/
def ofArguments? (args : List String) : Option Options :=
  unset.read? args

end Options

/-- What the program has printed, and its exit code. -/
structure Outcome where
  code : UInt32
  stdout : String
  stderr : String
deriving DecidableEq, Repr, Inhabited

namespace CommandLine

/-- The program ends with an error. -/
def failure (stdout message : String) : Outcome :=
  ⟨1, stdout, "Error: " ++ message ++ "\n"⟩

/-- Whether a path ends in a file name with the extension `mustache`. A name that consists of the
extension alone has none. -/
def isTemplate (path : String) : Bool :=
  match (path.splitOn "/").getLast? with
  | none => false
  | some name => name.endsWith ".mustache" && name != ".mustache"

/-- The view in a file. -/
def readView (disk : String → Except PathError Node) : Option String → Except String Value
  | none => .ok .null
  | some path =>
    match disk path with
    | .ok (.file (some text)) =>
      match Json.read? text with
      | some j => .ok (.ofJson j)
      | none => .error ("parsing " ++ path)
    | _ => .error ("reading " ++ path)

/-- The text that a template gives, and whether it was rendered to its end. -/
def renderFile (s : Settings) (l : Locale) (view : Value) (streamed : Bool) (source : String) :
    String × Bool :=
  if streamed then
    match renderTo s source l view ⟨.empty, .new none false⟩ with
    | some (.ok _, state) => (state.sink.text, true)
    | some (.error _, state) => (state.sink.text, false)
    | none => ("", false)
  else
    match render s source l view .empty with
    | some (.ok text, _) => (text, true)
    | _ => ("", false)

/-- Renders the templates among some files, after what has been printed already. -/
def renderFiles (s : Settings) (l : Locale) (view : Value) (streamed : Bool) (stdout : String) :
    List (String × Option String) → Outcome
  | [] => ⟨0, stdout, ""⟩
  | (path, content) :: rest =>
    if !isTemplate path then renderFiles s l view streamed stdout rest
    else
      match content with
      | none => failure stdout ("reading " ++ path)
      | some source =>
        let stdout := stdout ++ "== " ++ path ++ " ==\n"
        match renderFile s l view streamed source with
        | (text, true) => renderFiles s l view streamed (stdout ++ text ++ "\n") rest
        | (text, false) => failure (stdout ++ text) ("rendering " ++ path)

/-- What the program prints for some arguments. The disk gives the file or folder at a path. -/
def run (disk : String → Except PathError Node) (o : Options) : Outcome :=
  match Locale.ofTag? o.localeTag with
  | none => failure "" ("unknown locale " ++ o.localeTag)
  | some l =>
    match readView disk o.data with
    | .error message => failure "" message
    | .ok view =>
      match Demo.addTo .stock with
      | .error e => failure "" e.message
      | .ok s =>
        match disk o.templatesPath with
        | .error e =>
          failure "" ("IO error for operation on " ++ o.templatesPath ++ ": " ++ e.message)
        | .ok node => renderFiles s l view o.streamed "" (node.files o.templatesPath)

end CommandLine

end Stencil
