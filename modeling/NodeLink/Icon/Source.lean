import NodeLink.Icon.Symbol
import NodeLink.Icon.Bundled
import NodeLink.Files.Fault
import NodeLink.Text.FileAddress
import NodeLink.Graph.Basic
import NodeLink.Notice

/-!
# Where icons come from

An icon is named by a web address, a file address or a path. Loading icons fetches every distinct address
once, all of them side by side; one that cannot be fetched is left out with a notice. What the world holds is
given by a table of files and a table of web answers.
-/

namespace NodeLink.Icon

open NodeLink.Text

inductive WebAnswer where
  | response (status : Int) (body : List Nat)
  | failure (reason : String)

/-- Files by their plain paths, with their bytes, and web answers by address. -/
structure World where
  files : List (List Char × List Nat) := []
  web : List (String × WebAnswer) := []

/-- The file of a bundled icon. -/
def bundledFile? (path : List Char) : Option (List Nat) :=
  (bundled.find? fun entry => path == "graphdiagram/icons/".toList ++ entry.1.toList ++ ".svg".toList).map
    fun entry => Utf8.encode entry.2.toList

def World.file? (w : World) (path : List Char) : Option (List Nat) :=
  match w.files.find? fun entry => entry.1 == path with
  | some entry => some entry.2
  | none => bundledFile? path

/-- The text of a file, with its line ends unified. -/
def readFile (w : World) (path : List Char) : Except String (List Char) :=
  match w.file? path with
  | none => .error (Files.Fault.mk .missing path).message
  | some bytes =>
    match Utf8.decode bytes with
    | .ok cs => .ok (unifyLineEnds cs)
    | .error fault => .error fault.message

def isWeb (uri : List Char) : Bool := startsWith "http://".toList uri || startsWith "https://".toList uri

/-- The path that a file address or a plain path names. -/
def localPath (uri : List Char) : Except Fault (List Char) :=
  match afterLead? "file://".toList uri with
  | none => .ok (Path.normal uri)
  | some rest =>
    match FileAddress.path? rest with
    | some path => .ok (Path.normal path)
    | none => .error (.authority (String.ofList uri))

/-- The answer to a web address; one that is not in the table is not found. -/
def World.ask (w : World) (address : List Char) : WebAnswer :=
  match w.web.find? fun entry => entry.1.toList == address with
  | some entry => entry.2
  | none => .response 404 []

def answered (uri : String) : WebAnswer → Except Fault (List Char)
  | .failure reason => .error (.icon uri reason)
  | .response status body =>
    if status = 200 then .ok (Utf8.decodeLenient body)
    else .error (.icon uri ("HTTP error! status: " ++ toString status))

/-- The text of an icon on the web. An answer cannot be used if the address names no host. -/
def fetchWeb (w : World) (uri : String) : Except Fault (List Char) :=
  match WebAddress.read? uri.toList with
  | none => .error (.address uri)
  | some parts =>
    if uri.toList.any carriesHalf then .error .unencodable
    else if parts.hasHost then answered uri (w.ask parts.text)
    else match w.ask parts.hostless with
      | .failure reason => .error (.icon uri reason)
      | .response .. => .error (.authority uri)

def fetchFile (w : World) (uri : String) : Except Fault (List Char) := do
  match readFile w (← localPath uri.toList) with
  | .ok cs => return cs
  | .error reason => throw (.icon uri reason)

def fetch (w : World) (uri : Json) : Except Fault (List Char) := do
  let uri ← uri.text? "startswith"
  if isWeb uri.toList then fetchWeb w uri else fetchFile w uri

/-- The web address that is asked for an icon, if any. -/
def request? (uri : Json) : Option String := do
  match uri with
  | .text s => if isWeb s.toList then some (String.ofList (← WebAddress.read? s.toList).text) else none
  | _ => none

/-- The values that count as given, each once and in the order in which they come up. -/
def distinct : List Json → Except Fault (List Json)
  | [] => .ok []
  | uri :: rest => do
    if uri.isGiven then
      let key ← Graph.keyOf uri
      return uri :: (← distinct rest).filter fun other => other.key? != some key
    else distinct rest

/-- What loading one icon leads to: its symbol, or a notice if it is missing. -/
def load (w : World) (uri : Json) : Except Fault (Except Notice (Json × Symbol)) :=
  match fetch w uri with
  | .ok svg => .ok (.ok (uri, Symbol.ofSvg svg (Symbol.idOf uri.spelled)))
  | .error (.icon name reason) => .ok (.error (.iconMissing name (Fault.icon name reason).message))
  | .error fault => .error fault

def symbolOf? : Except Notice (Json × Symbol) → Option (Json × Symbol)
  | .ok entry => some entry
  | .error _ => none

def noticeOf? : Except Notice (Json × Symbol) → Option Notice
  | .ok _ => none
  | .error notice => some notice

/-- Loaded symbols by address, the notices about those that are missing, and the addresses fetched. -/
structure Loaded where
  symbols : List (Json × Symbol) := []
  notices : List Notice := []
  fetched : List Json := []

/-- The web addresses asked. -/
def Loaded.requests (loaded : Loaded) : List String := loaded.fetched.filterMap request?

/-- Icons that are loaded side by side: every address with what its fetch has come to, if that has come back, and the
addresses fetched and the notices given so far. -/
structure Loading where
  slots : List (Json × Option (Except Notice (Json × Symbol)))
  fetched : List Json := []
  notices : List Notice := []

namespace Loading

def start (unique : List Json) : Loading := { slots := unique.map fun uri => (uri, none) }

/-- The fetch in a place comes back. One that is back already does not come back again. -/
def comeBack (w : World) (l : Loading) (place : Nat) : Except Fault Loading :=
  match l.slots[place]? with
  | some (uri, none) => do
    let outcome ← load w uri
    return { slots := l.slots.set place (uri, some outcome), fetched := l.fetched ++ [uri]
             notices := l.notices ++ (noticeOf? outcome).toList }
  | _ => .ok l

/-- What is gathered of the fetches that are back, in the order of their places. -/
def gathered (l : Loading) : Loaded :=
  { symbols := l.slots.filterMap fun slot => slot.2.bind symbolOf?, notices := l.notices, fetched := l.fetched }

end Loading

/-- Loads every distinct icon. All are fetched side by side, and the fetches come back in the order that is given for
as many of them. -/
def loadInOrder (order : Nat → List Nat) (w : World) (uris : List Json) : Except Fault Loaded := do
  let unique ← distinct uris
  let loading ← (order unique.length).foldlM (Loading.comeBack w) (.start unique)
  return loading.gathered

/-- Loads every distinct icon, with fetches that come back one after the other. -/
def loadAll (w : World) (uris : List Json) : Except Fault Loaded := loadInOrder List.range w uris

/-- The symbol of an address among loaded ones; values without a key can be no address. -/
def Loaded.symbol? (loaded : Loaded) (uri : Json) : Except Fault (Option Symbol) := do
  let key ← Graph.keyOf uri
  return (loaded.symbols.find? fun entry => entry.1.key? == some key).map (·.2)

end NodeLink.Icon
