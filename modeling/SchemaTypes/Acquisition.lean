import SchemaTypes.Host
import SchemaTypes.Schema.Parsing
import SchemaTypes.Settings

/-!
# Acquiring documents

Documents come from files and from at most one address, the files first and in
their order. The first document that cannot be had ends it all. A request that gets
no reply, or one that blames the server, is repeated as often as the settings say,
after pauses that grow.
-/

set_option autoImplicit false

namespace SchemaTypes

inductive Level
  | info
  | warning
deriving DecidableEq, Repr

def Level.text : Level → String
  | .info => "INFO"
  | .warning => "WARN"

def progress (level : Level) (part text : String) : String :=
  level.text ++ " typepick_cli::" ++ part ++ ": " ++ text

namespace Acquisition

inductive Failure
  | noSource
  | unreadable (path : String) (fault : Files.Fault)
  | malformed (origin : String) (cause : Schema.Unreadable)
  | noClient (trouble : Trouble)
  | unanswered (url : String) (trouble : Trouble)
  | refused (url : String) (status : Status)

/-- The words of a trouble after a text that leads to them. -/
def told (lead : String) (t : Trouble) : String :=
  match t.words with
  | some words => lead ++ words
  | none => ""

/-- What a user is told. After the first words about a malformed YAML document come those of
the reader, which are left out. -/
def Failure.message : Failure → String
  | .noSource =>
    "no schema source; pass --input PATH or --url URL, or set [source] url in the config file"
  | .unreadable path fault => "failed to read " ++ path ++ ": " ++ fault.message
  | .malformed origin cause => origin ++ ": " ++ cause.documentMessage
  | .noClient trouble => "failed to build HTTP client" ++ told ": " trouble
  | .unanswered url trouble => "request to " ++ url ++ " failed" ++ told ": " trouble
  | .refused url status => url ++ " responded with " ++ status.text

variable {m : Type → Type} [Monad m] [Host m]

def parse (origin : String) (format : Format) (text : String) :
    Except Failure Schema.Document :=
  match Schema.Document.parse format text with
  | .ok d => .ok d
  | .error cause => .error (.malformed origin cause)

def readDocument (path : String) : m (Except Failure Schema.Document) := do
  match ← Host.read path with
  | .error fault => return .error (.unreadable path fault)
  | .ok text => return parse path (Format.ofPath path) text

/-- The documents in files, up to the first failure. -/
def readDocuments : List String → m (Except Failure (List Schema.Document))
  | [] => return .ok []
  | path :: paths => do
    match ← readDocument path with
    | .error f => return .error f
    | .ok d =>
      match ← readDocuments paths with
      | .error f => return .error f
      | .ok ds => return .ok (d :: ds)

/-- The first pause takes so many milliseconds, the second one twice as many, and so on. -/
def firstPause : Nat := 200

/-- What is told before a request is repeated. Other replies are final. -/
def retryLine? (url : String) (attempt : Nat) : Except Trouble Reply → Option String
  | .error trouble =>
    some (progress .warning "fetch"
      ("Document request failed; retrying. url=" ++ url ++ told " error=" trouble ++
        " attempt=" ++ toString attempt))
  | .ok reply =>
    if reply.status.isServerError then
      some (progress .warning "fetch"
        ("Server error; retrying. url=" ++ url ++ " status=" ++ reply.status.text ++
          " attempt=" ++ toString attempt))
    else none

/-- Sends a request for the time after `attempt` others, and again up to `retries` times. -/
def send (r : Request) : Nat → Nat → m (Except Trouble Reply)
  | 0, _ => Host.request r
  | retries + 1, attempt => do
    let outcome ← Host.request r
    match retryLine? r.url attempt outcome with
    | none => return outcome
    | some line =>
      Host.report line
      Host.pause (firstPause * (attempt + 1))
      send r retries (attempt + 1)

/-- The document in the last reply. -/
def receive (url : String) : Except Trouble Reply → Except Failure Schema.Document
  | .error trouble => .error (.unanswered url trouble)
  | .ok reply =>
    if reply.status.isSuccess then
      match reply.text with
      | .error trouble => .error (.unanswered url trouble)
      | .ok text => parse url reply.format text
    else .error (.refused url reply.status)

def fetchDocument (r : Request) (retries : Nat) : m (Except Failure Schema.Document) := do
  match ← Host.makeClient with
  | .ok () => return receive r.url (← send r retries 0)
  | .error trouble =>
    Host.report
      (progress .warning "fetch"
        ("Failed to build document HTTP client." ++ told " error=" trouble))
    return .error (.noClient trouble)

structure Wish where
  inputs : List String := []
  url : Option String := none
  token : Option String := none
  language : Option String := none
  settings : Option String := none
deriving DecidableEq, Repr

/-- The address of the user goes before that of the settings. -/
def Wish.address (w : Wish) (s : Source) : Option String :=
  match w.url with
  | some url => some url
  | none => s.url

def Wish.request (w : Wish) (s : Source) (url : String) : Request :=
  ⟨url, w.token, w.language.getD s.language, s.timeout⟩

/-- All documents: those of the files, and then that of the address. -/
def load (w : Wish) (s : Source) : m (Except Failure (List Schema.Document)) := do
  match w.inputs, w.address s with
  | [], none => return .error .noSource
  | inputs, address =>
    match ← readDocuments inputs with
    | .error f => return .error f
    | .ok ds =>
      match address with
      | none => return .ok ds
      | some url =>
        match ← fetchDocument (w.request s url) s.retries with
        | .error f => return .error f
        | .ok d =>
          Host.report (progress .info "source" ("Fetched schema document. url=" ++ url))
          return .ok (ds ++ [d])

end Acquisition

end SchemaTypes
