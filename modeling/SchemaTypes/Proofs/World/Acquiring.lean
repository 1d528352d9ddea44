import SchemaTypes.Command
import SchemaTypes.Proofs.Json.Form
import SchemaTypes.Proofs.World.Writing

/-!
# Acquiring documents in a world

What a world has for a command, as functions of the world: its settings, its
documents, and the reply that a request gets in the end. A command finds just that,
and on the way nothing changes but for requests, pauses and lines that tell of them.
-/

set_option autoImplicit false

namespace SchemaTypes

open Acquisition (Wish)

/-- What is wrong with a result, if anything is. -/
def failure? {ε α : Type} : Except ε α → Option ε
  | .error e => some e
  | .ok _ => none

/-- A list of results fails as the first one that does. -/
theorem failure?_mapM {ε α β : Type} (f : α → Except ε β) (xs : List α) :
    failure? (xs.mapM f) = (xs.filterMap fun x => failure? (f x)).head? := by
  induction xs with
  | nil => rfl
  | cons x xs ih =>
    rw [List.mapM_cons, List.filterMap_cons]
    cases f x with
    | error e => rfl
    | ok b =>
      refine Eq.trans ?_ ih
      show failure? (xs.mapM f >>= _) = _
      cases xs.mapM f <;> rfl

/-- The line is a warning about a request. -/
def IsWarning (line : String) : Prop := ∃ text, line = progress .warning "fetch" text

namespace World

variable {P Q : String → Prop} {w w' w'' : World}

def isFile (w : World) (path : String) : Bool :=
  match w.files.find w.directory path with
  | .ok t => t.isFile
  | .error _ => false

def settingsAt (w : World) (path : String) : Except Settings.Failure Settings :=
  match w.files.read w.directory path with
  | .error fault => .error (.unreadable path fault)
  | .ok text =>
    match Settings.ofText? text with
    | some s => .ok s
    | none => .error (.malformed path)

/-- The settings in the file that is named, or else in the first one that is there. -/
def settings (w : World) (named : Option String) : Except Settings.Failure Settings :=
  match named.or ((Settings.candidates w.directoryPath? w.home).find? w.isFile) with
  | some path => w.settingsAt path
  | none => .ok {}

def document (w : World) (path : String) : Except Acquisition.Failure Schema.Document :=
  match w.files.read w.directory path with
  | .error fault => .error (.unreadable path fault)
  | .ok text => Acquisition.parse path (Format.ofPath path) text

/-- A file with a text in JSON is the document that the form of the text says. -/
theorem document_of_form {w : World} {path text : String} {f : Json.Form} {d : Schema.Document}
    (hread : w.files.read w.directory path = .ok text) (hformat : Format.ofPath path = .json)
    (hform : Json.form? text = some f) (hd : f.document? = some d) : w.document path = .ok d := by
  have hparse := Json.toOption_parse text
  rw [hform, Option.bind_some, hd] at hparse
  rw [document, hread]
  dsimp only
  rw [Acquisition.parse, hformat]
  cases hresult : Schema.Document.parse .json text with
  | error e =>
    rw [hresult] at hparse
    cases hparse
  | ok d' =>
    rw [hresult] at hparse
    cases hparse
    rfl

/-- How the last of at most so many requests more than one goes, after `n` others. A reply
is the last one if it does not blame the server. -/
def lastOutcome (outcome : Nat → Except Trouble Reply) : Nat → Nat → Except Trouble Reply
  | 0, n => outcome n
  | retries + 1, n =>
    match outcome n with
    | .error _ => lastOutcome outcome retries (n + 1)
    | .ok reply =>
      if reply.status.isServerError then lastOutcome outcome retries (n + 1) else .ok reply

def fetched (w : World) (r : Request) (retries : Nat) :
    Except Acquisition.Failure Schema.Document :=
  if w.client then
    Acquisition.receive r.url (lastOutcome (w.outcome · r) retries w.requests.length)
  else .error (.noClient w.clientTrouble)

/-- The documents of all files in their order, and then that of the address. -/
def documents (w : World) (wish : Wish) (s : Source) :
    Except Acquisition.Failure (List Schema.Document) :=
  if wish.inputs = [] ∧ wish.address s = none then .error .noSource
  else do
    let ds ← wish.inputs.mapM w.document
    match wish.address s with
    | none => return ds
    | some url => return ds ++ [← w.fetched (wish.request s url) s.retries]

/-- Requests have been sent, with pauses, and lines told; nothing else has changed. -/
def Tells (P : String → Prop) (w w' : World) : Prop :=
  ∃ requests pauses lines, (∀ line ∈ lines, P line) ∧
    w' = { w with
      requests := w.requests ++ requests
      pauses := w.pauses ++ pauses
      reports := w.reports ++ lines }

theorem Tells.refl (P : String → Prop) (w : World) : w.Tells P w := by
  refine ⟨[], [], [], fun _ h => (List.not_mem_nil h).elim, ?_⟩
  rw [List.append_nil, List.append_nil, List.append_nil]

theorem Tells.trans (h : w.Tells P w') (h' : w'.Tells P w'') : w.Tells P w'' := by
  obtain ⟨rs, ps, ls, hls, rfl⟩ := h
  obtain ⟨rs', ps', ls', hls', rfl⟩ := h'
  refine ⟨rs ++ rs', ps ++ ps', ls ++ ls', fun line hline => ?_, ?_⟩
  · exact (List.mem_append.mp hline).elim (hls line) (hls' line)
  · rw [← List.append_assoc, ← List.append_assoc, ← List.append_assoc]

theorem Tells.mono (h : w.Tells P w') (hPQ : ∀ line, P line → Q line) : w.Tells Q w' := by
  obtain ⟨rs, ps, ls, hls, heq⟩ := h
  exact ⟨rs, ps, ls, fun line hline => hPQ line (hls line hline), heq⟩

theorem tells_report {line : String} (h : P line) (w : World) :
    w.Tells P ((Host.report line : StateM World Unit).run w).2 := by
  refine ⟨[], [], [line], fun l hl => (List.mem_singleton.mp hl) ▸ h, ?_⟩
  rw [List.append_nil, List.append_nil]
  rfl

theorem tells_request (P : String → Prop) (r : Request) (w : World) :
    w.Tells P ((Host.request r : StateM World (Except Trouble Reply)).run w).2 := by
  refine ⟨[r], [], [], fun _ h => (List.not_mem_nil h).elim, ?_⟩
  rw [List.append_nil, List.append_nil]
  rfl

theorem tells_pause (P : String → Prop) (n : Nat) (w : World) :
    w.Tells P ((Host.pause n : StateM World Unit).run w).2 := by
  refine ⟨[], [n], [], fun _ h => (List.not_mem_nil h).elim, ?_⟩
  rw [List.append_nil, List.append_nil]
  rfl

theorem firstFile?_run (paths : List String) (w : World) :
    (Settings.firstFile? paths : StateM World (Option String)).run w =
      (paths.find? w.isFile, w) := by
  induction paths with
  | nil => rfl
  | cons path paths ih =>
    have hfile : (Host.isFile path : StateM World Bool).run w = (w.isFile path, w) := by
      show (match w.files.find w.directory path with
        | .ok t => return t.isFile
        | .error _ => return false : StateM World Bool).run w = _
      rw [isFile]
      cases w.files.find w.directory path <;> rfl
    rw [Settings.firstFile?, run_bind, hfile, List.find?_cons]
    cases w.isFile path with
    | true => rfl
    | false => exact ih

theorem settingsAt_run (path : String) (w : World) :
    (Settings.read path : StateM World (Except Settings.Failure Settings)).run w =
      (w.settingsAt path, w) := by
  show ((match w.files.read w.directory path with
    | .error fault => return .error (.unreadable path fault)
    | .ok text =>
      match Settings.ofText? text with
      | some s => return .ok s
      | none => return .error (.malformed path) :
      StateM World (Except Settings.Failure Settings)).run w) = _
  rw [settingsAt]
  cases w.files.read w.directory path with
  | error fault => rfl
  | ok text =>
    dsimp only
    cases Settings.ofText? text <;> rfl

theorem settings_run (named : Option String) (w : World) :
    (Settings.load named : StateM World (Except Settings.Failure Settings)).run w =
      (w.settings named, w) := by
  cases named with
  | some path => exact settingsAt_run path w
  | none =>
    have hfind := firstFile?_run (Settings.candidates w.directoryPath? w.home) w
    have hhome : (Host.homeDirectory : StateM World (Option String)).run w = (w.home, w) := rfl
    have hdirectory : (Host.workingDirectory : StateM World (Option String)).run w =
      (w.directoryPath?, w) := rfl
    rw [Settings.load, run_bind, hdirectory, run_bind, hhome, run_bind, Settings.discover?, hfind,
      settings, Option.none_or]
    cases (Settings.candidates w.directoryPath? w.home).find? w.isFile with
    | some path => exact settingsAt_run path w
    | none => rfl

theorem readDocument_run (path : String) (w : World) :
    (Acquisition.readDocument path : StateM World _).run w = (w.document path, w) := by
  show ((match w.files.read w.directory path with
    | .error fault => return .error (.unreadable path fault)
    | .ok text => return Acquisition.parse path (Format.ofPath path) text :
      StateM World (Except Acquisition.Failure Schema.Document)).run w) = _
  rw [document]
  cases w.files.read w.directory path <;> rfl

theorem readDocuments_run (paths : List String) (w : World) :
    (Acquisition.readDocuments paths : StateM World _).run w = (paths.mapM w.document, w) := by
  induction paths with
  | nil => rfl
  | cons path paths ih =>
    rw [Acquisition.readDocuments, run_bind, readDocument_run, List.mapM_cons]
    cases w.document path with
    | error f => rfl
    | ok d =>
      dsimp only
      rw [run_bind, ih]
      cases paths.mapM w.document <;> rfl

theorem request_run (r : Request) (w : World) :
    (Host.request r : StateM World (Except Trouble Reply)).run w =
      (w.outcome w.requests.length r, { w with requests := w.requests ++ [r] }) := rfl

/-- By induction on the retries that are left; what is told between two requests is a
warning. -/
theorem send_run (r : Request) (retries attempt : Nat) (w : World) :
    ∃ w', (Acquisition.send r retries attempt : StateM World _).run w =
      (lastOutcome (w.outcome · r) retries w.requests.length, w') ∧ w.Tells IsWarning w' := by
  induction retries generalizing attempt w with
  | zero => exact ⟨_, rfl, tells_request IsWarning r w⟩
  | succ retries ih =>
    have hrequest := tells_request IsWarning r w
    rw [request_run] at hrequest
    have hretry : ∀ line, IsWarning line →
        ∃ w', ((do
          Host.report line
          Host.pause (Acquisition.firstPause * (attempt + 1))
          Acquisition.send r retries (attempt + 1) : StateM World _).run
            { w with requests := w.requests ++ [r] }) =
          (lastOutcome (w.outcome · r) retries (w.requests.length + 1), w') ∧
          w.Tells IsWarning w' := by
      intro line hline
      have hreport := hrequest.trans (tells_report hline _)
      have hpause := hreport.trans
        (tells_pause IsWarning (Acquisition.firstPause * (attempt + 1)) _)
      obtain ⟨w', hrun, htells⟩ := ih (attempt + 1) _
      refine ⟨w', ?_, hpause.trans htells⟩
      rw [run_bind, run_bind, hrun]
      show (lastOutcome (w.outcome · r) retries (w.requests ++ [r]).length, w') = _
      rw [List.length_append]
      rfl
    rw [Acquisition.send, run_bind, request_run, lastOutcome]
    dsimp only
    cases w.outcome w.requests.length r with
    | error trouble => exact hretry _ ⟨_, rfl⟩
    | ok reply =>
      rw [Acquisition.retryLine?]
      dsimp only
      cases hblames : reply.status.isServerError with
      | true => exact hretry _ ⟨_, rfl⟩
      | false => exact ⟨_, rfl, hrequest⟩

theorem makeClient_run (w : World) :
    (Host.makeClient : StateM World (Except Trouble Unit)).run w =
      (if w.client then .ok () else .error w.clientTrouble, w) := by
  show ((if w.client then return .ok () else return .error w.clientTrouble :
    StateM World (Except Trouble Unit)).run w) = _
  cases w.client <;> rfl

theorem fetched_run (r : Request) (retries : Nat) (w : World) :
    ∃ w', (Acquisition.fetchDocument r retries : StateM World _).run w =
      (w.fetched r retries, w') ∧ w.Tells IsWarning w' := by
  rw [Acquisition.fetchDocument, run_bind, makeClient_run, fetched]
  cases w.client with
  | true =>
    obtain ⟨w', hrun, htells⟩ := send_run r retries 0 w
    refine ⟨w', ?_, htells⟩
    rw [if_pos rfl, if_pos rfl]
    dsimp only
    rw [run_bind, hrun]
    rfl
  | false => exact ⟨_, rfl, tells_report ⟨_, rfl⟩ w⟩

theorem load_of_source {wish : Wish} {s : Source}
    (h : ¬(wish.inputs = [] ∧ wish.address s = none)) :
    (Acquisition.load wish s : StateM World _) = do
      match ← Acquisition.readDocuments wish.inputs with
      | .error f => return .error f
      | .ok ds =>
        match wish.address s with
        | none => return .ok ds
        | some url =>
          match ← Acquisition.fetchDocument (wish.request s url) s.retries with
          | .error f => return .error f
          | .ok d =>
            Host.report (progress .info "source" ("Fetched schema document. url=" ++ url))
            return .ok (ds ++ [d]) := by
  rw [Acquisition.load]
  split
  · exact absurd ⟨‹_›, ‹_›⟩ h
  · rfl

/-- If anything fails, only warnings are told, and nothing at all happens if it is a
file. -/
theorem documents_run (wish : Wish) (s : Source) (w : World) :
    ∃ w', (Acquisition.load wish s : StateM World _).run w = (w.documents wish s, w') ∧
      w.Tells (fun line => IsWarning line ∨ (w.documents wish s).isOk) w' ∧
      ((failure? (wish.inputs.mapM w.document)).isSome → w' = w) := by
  rw [documents]
  by_cases hsource : wish.inputs = [] ∧ wish.address s = none
  · refine ⟨w, ?_, .refl _ w, fun _ => rfl⟩
    rw [if_pos hsource, Acquisition.load, hsource.1, hsource.2]
    rfl
  rw [load_of_source hsource, if_neg hsource, run_bind, readDocuments_run]
  cases wish.inputs.mapM w.document with
  | error f => exact ⟨w, rfl, .refl _ w, fun _ => rfl⟩
  | ok ds =>
    dsimp only
    cases wish.address s with
    | none => exact ⟨w, rfl, .refl _ w, fun _ => rfl⟩
    | some url =>
      obtain ⟨w', hrun, htells⟩ := fetched_run (wish.request s url) s.retries w
      dsimp only
      rw [run_bind, hrun]
      cases w.fetched (wish.request s url) s.retries with
      | error f => exact ⟨w', rfl, htells.mono fun _ => .inl, fun h => by cases h⟩
      | ok d =>
        have htells' := htells.mono (Q := fun line => IsWarning line ∨ true = true) fun _ => .inl
        exact ⟨_, rfl, htells'.trans (tells_report (.inr rfl) w'), fun h => by cases h⟩

end World

end SchemaTypes
