import SchemaTypes.Proofs.Command.Atomic
import SchemaTypes.Proofs.World.Alike

/-!
# The address in the settings

Settings may name an address, and it is asked for a document also when there are files
to read: the document at the address comes after those of the files, and if it cannot be
had, the command fails. So settings that differ only in their address lead to the same
run just if a file fails anyway, or if both addresses have the same to offer. An address
of the user goes before both.
-/

set_option autoImplicit false

namespace SchemaTypes

open Acquisition (Wish)

/-- The settings but for the address. -/
def Settings.unaddressed (s : Settings) : Settings :=
  { s with source := { s.source with url := none } }

theorem toOption_eq_some_iff {ε α : Type} {x : Except ε α} {a : α} :
    x.toOption = some a ↔ x = .ok a := by
  cases x <;> simp [Except.toOption]

namespace World

variable {w w' : World} {wish : Wish}

/-- The documents of the files, if all can be had. -/
def filed (w : World) (wish : Wish) : Option (List Schema.Document) :=
  (wish.inputs.mapM w.document).toOption

/-- The document at the address, if there is an address; nothing if there are no settings
or if the document cannot be had. -/
def addressed (w : World) (wish : Wish) : Option (Option Schema.Document) :=
  (w.settings wish.settings).toOption.bind fun s =>
    match wish.address s.source with
    | none => some none
    | some url => (w.fetched (wish.request s.source url) s.source.retries).toOption.map some

/-- All documents that a command goes by, if it has its settings and can have them. -/
def acquired (w : World) (wish : Wish) : Option (List Schema.Document) :=
  (w.settings wish.settings).toOption.bind fun s => (w.documents wish s.source).toOption

theorem acquired_eq (hinputs : wish.inputs ≠ []) :
    w.acquired wish =
      (w.filed wish).bind fun ds => (w.addressed wish).map fun d => ds ++ d.toList := by
  rw [acquired, addressed, filed]
  cases w.settings wish.settings with
  | error f => cases wish.inputs.mapM w.document <;> rfl
  | ok s =>
    show (w.documents wish s.source).toOption = _
    rw [documents, if_neg fun h => hinputs h.1]
    cases wish.inputs.mapM w.document with
    | error f => rfl
    | ok ds =>
      show (match wish.address s.source with
        | none => _
        | some url => _ : Except Acquisition.Failure (List Schema.Document)).toOption =
          ((match wish.address s.source with
            | none => _
            | some url => _ : Option (Option Schema.Document)).map fun d => ds ++ d.toList)
      cases wish.address s.source with
      | none => exact congrArg some (List.append_nil ds).symm
      | some url =>
        dsimp only
        cases w.fetched (wish.request s.source url) s.source.retries <;> rfl

theorem append_toList_injective {α : Type} (xs : List α) :
    Function.Injective fun x? : Option α => xs ++ x?.toList := by
  intro x? y? h
  have hlist := List.append_cancel_left h
  cases x? <;> cases y? <;> cases hlist <;> rfl

/-- If the files are the same, the address decides, unless a file fails. -/
theorem acquired_eq_iff (hinputs : wish.inputs ≠ []) (hfiled : w'.filed wish = w.filed wish) :
    w'.acquired wish = w.acquired wish ↔
      w.filed wish = none ∨ w'.addressed wish = w.addressed wish := by
  rw [acquired_eq hinputs, acquired_eq hinputs, hfiled]
  cases w.filed wish with
  | none =>
    rw [Option.bind_none, Option.bind_none]
    exact iff_of_true rfl (.inl rfl)
  | some ds =>
    rw [Option.bind_some, Option.bind_some, or_iff_right (Option.some_ne_none ds)]
    exact (Option.map_injective (append_toList_injective ds)).eq_iff

theorem AlikeBut.filed {p : List String} (h : AlikeBut p w w')
    (hother : ∀ path ∈ wish.inputs,
      w.files.walk (Files.Tree.start w.directory path) (Files.Tree.names path) ≠ .ok p) :
    w'.filed wish = w.filed wish := by
  rw [World.filed, World.filed]
  generalize wish.inputs = inputs at hother
  congr 1
  induction inputs with
  | nil => rfl
  | cons path inputs ih =>
    rw [List.forall_mem_cons] at hother
    rw [List.mapM_cons, List.mapM_cons, h.document hother.1, ih hother.2]

theorem AlikeBut.tells {p : List String} {P Q : String → Prop} {v v' : World} (h : AlikeBut p w w')
    (ht : w.Tells P v) (ht' : w'.Tells Q v') : AlikeBut p v v' := by
  obtain ⟨_, _, _, _, rfl⟩ := ht
  obtain ⟨_, _, _, _, rfl⟩ := ht'
  exact ⟨h.files, h.directory, h.closed, h.output⟩

theorem acquired_eq_some_iff {docs : List Schema.Document} :
    w.acquired wish = some docs ↔
      ∃ s, w.settings wish.settings = .ok s ∧ w.documents wish s.source = .ok docs := by
  simp only [acquired, Option.bind_eq_some_iff, toOption_eq_some_iff]

theorem generation_of_not_acquired (h : w.acquired wish = none) (v : Overrides) :
    ∃ f, w.generation wish v = .error f := by
  cases hg : w.generation wish v with
  | error f => exact ⟨f, rfl⟩
  | ok g =>
    obtain ⟨s, docs, hs, hdocs, -⟩ := generation_eq_ok_iff.mp hg
    rw [acquired_eq_some_iff.mpr ⟨s, hs, hdocs⟩] at h
    cases h

end World

namespace Command

variable {p : List String} {w w' : World}

theorem finish_respects (c : Command) (g : Generation) : World.Respects p (c.finish g) := by
  cases c with
  | generate wish overrides encoding out => exact .put out _
  | search wish query =>
    apply (World.Respects.put none _).bind
    rintro (f | _)
    · exact .pure _
    · exact (World.Respects.report _).bind fun _ => .pure _
  | list wish => exact .put none _

theorem generation_of_acquired {c : Command} {docs : List Schema.Document}
    (h : w.acquired c.wish = some docs) :
    ∃ s, w.settings c.wish.settings = .ok s ∧
      w.generation c.wish c.overrides =
        .ok (SchemaTypes.generate docs (c.overrides.apply s.options)) := by
  obtain ⟨s, hs, hdocs⟩ := World.acquired_eq_some_iff.mp h
  exact ⟨s, hs, World.generation_eq_ok_iff.mpr ⟨s, docs, hs, hdocs, rfl⟩⟩

theorem code_of_not_acquired {c : Command} (h : w.acquired c.wish = none) :
    ((c.run : StateM World Nat).run w).1 = 1 := by
  obtain ⟨f, hf⟩ := World.generation_of_not_acquired h c.overrides
  obtain ⟨v, hrun, -⟩ := run_of_error hf
  rw [hrun]

theorem code_of_acquired {c : Command} {docs : List Schema.Document}
    (h : w.acquired c.wish = some docs) (htarget : c.target? = none) (hopen : w.closed = none) :
    ((c.run : StateM World Nat).run w).1 = 0 := by
  obtain ⟨s, -, hg⟩ := generation_of_acquired h
  obtain ⟨v, ⟨_, _, _, _, hv⟩, hrun⟩ := run_of_ok hg
  have hvopen : v.closed = none := by rw [hv, hopen]
  obtain ⟨lines, hfinish⟩ := finish_printed htarget _ (World.obstacle_of_open hvopen _)
  rw [hrun, hfinish]

/-- With the same documents and options, a command does the same. -/
theorem run_of_acquired {c : Command} (h : World.AlikeBut p w w')
    (hsame : w'.acquired c.wish = w.acquired c.wish)
    (hoptions : ∀ s s', w.settings c.wish.settings = .ok s → w'.settings c.wish.settings = .ok s' →
      s'.options = s.options) :
    ∃ code after after', (c.run : StateM World Nat).run w = (code, after) ∧
      (c.run : StateM World Nat).run w' = (code, after') ∧ World.AlikeBut p after after' := by
  cases hdocs : w.acquired c.wish with
  | none =>
    -- The failures may differ, as an address that is refused and one that does not answer.
    obtain ⟨f, hf⟩ := World.generation_of_not_acquired hdocs c.overrides
    obtain ⟨f', hf'⟩ := World.generation_of_not_acquired (hsame.trans hdocs) c.overrides
    obtain ⟨v, hrun, htells, -⟩ := run_of_error hf
    obtain ⟨v', hrun', htells', -⟩ := run_of_error hf'
    have hv := h.tells htells htells'
    exact ⟨1, _, _, hrun, hrun', hv.files, hv.directory, hv.closed, hv.output⟩
  | some docs =>
    obtain ⟨s, hs, hg⟩ := generation_of_acquired hdocs
    obtain ⟨s', hs', hg'⟩ := generation_of_acquired (hsame.trans hdocs)
    rw [hoptions s s' hs hs'] at hg'
    generalize SchemaTypes.generate docs (c.overrides.apply s.options) = g at hg hg'
    -- What the two runs have told so far differs, but nothing depends on it.
    obtain ⟨v, htells, hrun⟩ := run_of_ok hg
    obtain ⟨v', htells', hrun'⟩ := run_of_ok hg'
    obtain ⟨hresult, hv⟩ := finish_respects c g v v' (h.tells htells htells')
    rw [hrun, hrun']
    generalize (c.finish g : StateM World (Except Failure Unit)).run v = result at hresult hv ⊢
    generalize (c.finish g : StateM World (Except Failure Unit)).run v' = result' at hresult hv ⊢
    obtain ⟨r, x⟩ := result
    obtain ⟨r', x'⟩ := result'
    obtain rfl : r' = r := hresult
    cases r' with
    | error f => exact ⟨1, _, _, rfl, rfl, hv.files, hv.directory, hv.closed, hv.output⟩
    | ok u => exact ⟨0, x, x', rfl, rfl, hv⟩

end Command

namespace World

/-- The world with another content in the file at a place. -/
def rewritten (w : World) (p : List String) (content : ByteArray) : World :=
  { w with files := w.files.rewritten p content }

theorem alikeBut_rewritten {w : World} {p : List String} {content : ByteArray}
    {access : Files.Access} (h : w.files.get? p = some (.file content access))
    (other : ByteArray) : AlikeBut p w (w.rewritten p other) :=
  ⟨.of_rewritten h other, rfl, rfl, rfl⟩

variable {w w' : World} {wish : Wish}

theorem addressed_of_url {url : String} (h : wish.url = some url) :
    w.addressed wish =
      ((w.settings wish.settings).toOption.map Settings.unaddressed).bind fun s =>
        (w.fetched (wish.request s.source url) s.source.retries).toOption.map some := by
  rw [addressed]
  cases w.settings wish.settings with
  | error f => rfl
  | ok s =>
    show (match wish.address s.source with
      | none => _
      | some url => _ : Option (Option Schema.Document)) = _
    rw [Wish.address, h]
    rfl

theorem addressed_of_no_url {s : Settings} (h : wish.url = none)
    (hs : w.settings wish.settings = .ok s) :
    w.addressed wish = some none ↔ s.source.url = none := by
  rw [addressed, hs]
  show (match wish.address s.source with
    | none => _
    | some url => _ : Option (Option Schema.Document)) = _ ↔ _
  rw [Wish.address, h]
  dsimp only
  cases s.source.url with
  | none => exact iff_of_true rfl rfl
  | some url => simp

end World

theorem World.toOption_fetched {w : World} {r : Request} {reply : Reply} {text : String}
    (hclient : w.client = true) (hanswer : ∀ n, w.answer n r = some reply)
    (hsuccess : reply.status.isSuccess = true) (htext : reply.text = .ok text) (retries : Nat) :
    (w.fetched r retries).toOption = (Schema.Document.parse reply.format text).toOption := by
  have houtcome (n : Nat) : w.outcome n r = .ok reply := by rw [outcome, hanswer]
  have hlast : lastOutcome (w.outcome · r) retries w.requests.length = .ok reply := by
    have hblames : reply.status.isServerError = false := by
      simp only [Status.isSuccess, Status.isServerError, Bool.and_eq_true, Bool.and_eq_false_iff,
        decide_eq_true_eq, decide_eq_false_iff_not] at hsuccess ⊢
      omega
    cases retries with
    | zero => rw [lastOutcome, houtcome]
    | succ retries =>
      rw [lastOutcome, houtcome]
      dsimp only
      rw [hblames, if_neg Bool.false_ne_true]
  rw [fetched, hclient, if_pos rfl, hlast, Acquisition.receive, hsuccess, if_pos rfl, htext]
  dsimp only
  rw [Acquisition.parse]
  cases Schema.Document.parse reply.format text <;> rfl

/-- Two settings files that differ only in their address: with files to read and no address
of the user, the addresses are asked as well, and the runs go by the same documents just if
the files cannot be had or the addresses give the same. Runs that go by the same documents
have one exit code and one output, and leave the same files but for the settings. -/
theorem Program.run_address {args : List String} {c : Command} {w : World}
    (hc : CommandLine.parse args w.token = .ok (some c)) (hinputs : c.wish.inputs ≠ [])
    {p : List String} {old : ByteArray} {access : Files.Access}
    (hfile : w.files.get? p = some (.file old access))
    (hother : ∀ path ∈ c.wish.inputs,
      w.files.walk (Files.Tree.start w.directory path) (Files.Tree.names path) ≠ .ok p)
    (new : ByteArray)
    (hsettings : ((w.rewritten p new).settings c.wish.settings).toOption.map Settings.unaddressed =
      (w.settings c.wish.settings).toOption.map Settings.unaddressed) :
    let w' := w.rewritten p new
    (w.acquired c.wish =
      (w.filed c.wish).bind fun ds => (w.addressed c.wish).map fun d => ds ++ d.toList) ∧
    (w'.acquired c.wish = w.acquired c.wish ↔
      w.filed c.wish = none ∨ w'.addressed c.wish = w.addressed c.wish) ∧
    (c.wish.url.isSome → w'.acquired c.wish = w.acquired c.wish) ∧
    (∀ s s', w.settings c.wish.settings = .ok s → w'.settings c.wish.settings = .ok s' →
      c.wish.url = none → s.source.url.isNone ≠ s'.source.url.isNone → w.filed c.wish ≠ none →
      w'.acquired c.wish ≠ w.acquired c.wish) ∧
    (w'.acquired c.wish = w.acquired c.wish →
      ∃ code after after', (Program.run args : StateM World Nat).run w = (code, after) ∧
        (Program.run args : StateM World Nat).run w' = (code, after') ∧
        after'.output = after.output ∧ after.files.AlikeBut p after'.files) := by
  intro w'
  have halike : World.AlikeBut p w w' := World.alikeBut_rewritten hfile new
  have hiff := World.acquired_eq_iff hinputs (halike.filed hother)
  refine ⟨World.acquired_eq hinputs, hiff, fun hurl => hiff.mpr (.inr ?_), ?_, fun hsame => ?_⟩
  · obtain ⟨url, hurl⟩ := Option.isSome_iff_exists.mp hurl
    rw [World.addressed_of_url hurl, World.addressed_of_url hurl, hsettings]
    rfl
  · intro s s' hs hs' hurl hne hfiled hsame
    have heq := (hiff.mp hsame).resolve_left hfiled
    have hnone := World.addressed_of_no_url hurl hs
    have hnone' := World.addressed_of_no_url hurl hs'
    rw [heq, hnone] at hnone'
    apply hne
    rw [Bool.eq_iff_iff, Option.isNone_iff_eq_none, Option.isNone_iff_eq_none]
    exact hnone'
  · have hc' : CommandLine.parse args w'.token = .ok (some c) := hc
    rw [Program.run_eq hc, Program.run_eq hc']
    obtain ⟨code, after, after', hrun, hrun', hafter⟩ :=
      Command.run_of_acquired halike hsame fun s s' hs hs' => by
        rw [hs, hs'] at hsettings
        have hequal : s'.unaddressed = s.unaddressed := Option.some.inj hsettings
        show s'.unaddressed.options = s.unaddressed.options
        rw [hequal]
    exact ⟨code, after, after', hrun, hrun', hafter.output, hafter.files⟩

def textOfPets : String := "\x7b\x22definitions\x22:\x7b\x22Pet\x22:\x7b\x7d\x7d\x7d"

/-- A machine with a file of pets and with settings, where one address does not answer and
all others answer with the pets once more. -/
def machineOfPets (settings : String) : World where
  files := .directory
    [("pets.json", .file textOfPets.toUTF8), ("typepick.toml", .file settings.toUTF8)]
  directory := []
  home := none
  answer := fun _ r =>
    if r.url = "nowhere" then none
    else some ⟨⟨200, "200 OK"⟩, none, "pets.json", .ok textOfPets⟩

theorem directoryPath?_machineOfPets (text : String) :
    (machineOfPets text).directoryPath? = some "/" := by rfl

theorem walk_machineOfPets (text : String) :
    ∀ path ∈ ["pets.json"], (machineOfPets text).files.walk (Files.Tree.start [] path)
      (Files.Tree.names path) ≠ .ok ["typepick.toml"] := by
  have hwalk : (machineOfPets text).files.walk (Files.Tree.start [] "pets.json")
      (Files.Tree.names "pets.json") = .ok ["pets.json"] := by rfl
  rw [List.forall_mem_singleton, hwalk]
  exact fun h => absurd (Except.ok.inj h) (by decide)

theorem settings_machineOfPets {text : String} {s : Settings} (h : Settings.ofText? text = some s) :
    (machineOfPets text).settings none = .ok s := by
  have hcandidates : Settings.candidates (machineOfPets text).directoryPath?
      (machineOfPets text).home = ["/typepick.toml"] := by
    rw [directoryPath?_machineOfPets]
    show Settings.candidates (some "/") none = _
    decide
  have hfile : (machineOfPets text).isFile "/typepick.toml" = true := by rfl
  have hread : (machineOfPets text).files.read (machineOfPets text).directory "/typepick.toml" =
      .ok text := Files.Tree.read_of_walk (p := ["typepick.toml"]) rfl rfl rfl rfl rfl
  rw [World.settings, hcandidates, List.find?_singleton, hfile]
  show (machineOfPets text).settingsAt "/typepick.toml" = _
  rw [World.settingsAt, hread]
  dsimp only
  rw [h]

theorem form_textOfPets :
    Json.form? textOfPets =
      some (.object [(some "definitions", .object [(some "Pet", .object [])])]) := by decide +kernel

theorem filed_machineOfPets (text : String) :
    (machineOfPets text).filed { inputs := ["pets.json"] } =
      some [{ definitions := some (.ofList [("Pet", {})]) }] := by
  have hread : (machineOfPets text).files.read (machineOfPets text).directory "pets.json" =
      .ok textOfPets := Files.Tree.read_of_walk (p := ["pets.json"]) rfl rfl rfl rfl rfl
  rw [World.filed, List.mapM_cons, World.document_of_form hread rfl form_textOfPets rfl]
  rfl

theorem addressed_machineOfPets {text url : String}
    (h : Settings.ofText? text = some { source := { url := some url } }) (hne : url ≠ "nowhere") :
    (machineOfPets text).addressed { inputs := ["pets.json"] } =
      some (some { definitions := some (.ofList [("Pet", {})]) }) := by
  let reply : Reply := ⟨⟨200, "200 OK"⟩, none, "pets.json", .ok textOfPets⟩
  have hanswer : ∀ n, (machineOfPets text).answer n ⟨url, none, "ko", 30⟩ = some reply :=
    fun _ => if_neg hne
  have hformat : reply.format = .json := by
    show Format.ofPath "pets.json" = .json
    rfl
  rw [World.addressed, settings_machineOfPets h]
  show (World.fetched _ ⟨url, none, "ko", 30⟩ 2).toOption.map some = _
  have htext : reply.text = .ok textOfPets := rfl
  rw [World.toOption_fetched rfl hanswer rfl htext, hformat, Json.toOption_parse, form_textOfPets]
  rfl

/-- Two addresses that answer with the same. -/
theorem Program.run_address_pets :
    let old := "source.url = \x22here\x22\n"
    let new := "source.url = \x22there\x22\n"
    let w := machineOfPets old
    let w' := w.rewritten ["typepick.toml"] new.toUTF8
    let d : Schema.Document := { definitions := some (.ofList [("Pet", {})]) }
    CommandLine.parse ["list", "-i", "pets.json"] none =
        .ok (some (.list { inputs := ["pets.json"] })) ∧
      w.files.get? ["typepick.toml"] = some (.file old.toUTF8) ∧
      w.settings none = .ok { source := { url := some "here" } } ∧
      w'.settings none = .ok { source := { url := some "there" } } ∧
      w.acquired { inputs := ["pets.json"] } = some [d, d] ∧
      w'.acquired { inputs := ["pets.json"] } = some [d, d] ∧
      ∃ code after after',
        (Program.run ["list", "-i", "pets.json"] : StateM World Nat).run w = (code, after) ∧
        (Program.run ["list", "-i", "pets.json"] : StateM World Nat).run w' = (code, after') ∧
        after'.output = after.output := by
  intro old new w w' d
  have hc : CommandLine.parse ["list", "-i", "pets.json"] none =
      .ok (some (.list { inputs := ["pets.json"] })) := by rfl
  have hold : Settings.ofText? old = some { source := { url := some "here" } } := by
    decide +kernel
  have hnew : Settings.ofText? new = some { source := { url := some "there" } } := by
    decide +kernel
  have hs : w.settings none = _ := settings_machineOfPets hold
  have hs' : w'.settings none = _ := settings_machineOfPets hnew
  have hsettings : (w'.settings none).toOption.map Settings.unaddressed =
      (w.settings none).toOption.map Settings.unaddressed := by
    rw [hs, hs']
    rfl
  have haddressed : w.addressed { inputs := ["pets.json"] } = some (some d) :=
    addressed_machineOfPets hold (by decide)
  have haddressed' : w'.addressed { inputs := ["pets.json"] } = some (some d) :=
    addressed_machineOfPets hnew (by decide)
  obtain ⟨hdocs, hiff, -, -, hrun⟩ :=
    Program.run_address (w := w) hc (List.cons_ne_nil _ _) rfl (walk_machineOfPets old)
      new.toUTF8 hsettings
  dsimp only [Command.wish] at hdocs hiff hrun
  have hacquired : w.acquired { inputs := ["pets.json"] } = some [d, d] := by
    rw [hdocs, show w.filed _ = some [d] from filed_machineOfPets old, haddressed]
    rfl
  have hsame := hiff.mpr (.inr (haddressed'.trans haddressed.symm))
  obtain ⟨code, after, after', hafter, hafter', houtput, -⟩ := hrun hsame
  exact ⟨hc, rfl, hs, hs', hacquired, hsame.trans hacquired, code, after, after', hafter, hafter',
    houtput⟩

/-- An address in the settings that gives nothing, beside a file that is there. -/
theorem Program.code_of_address :
    ¬ ∀ (args : List String) (c : Command) (w : World) (p : List String) (old new : ByteArray),
      CommandLine.parse args w.token = .ok (some c) → c.wish.inputs ≠ [] → c.wish.url = none →
      w.files.get? p = some (.file old) →
      (∀ path ∈ c.wish.inputs,
        w.files.walk (Files.Tree.start w.directory path) (Files.Tree.names path) ≠ .ok p) →
      ((w.rewritten p new).settings c.wish.settings).toOption.map Settings.unaddressed =
        (w.settings c.wish.settings).toOption.map Settings.unaddressed →
      ((Program.run args : StateM World Nat).run (w.rewritten p new)).1 =
        ((Program.run args : StateM World Nat).run w).1 := by
  intro h
  let new := "source.url = \x22nowhere\x22\n"
  let w := machineOfPets ""
  let w' := w.rewritten ["typepick.toml"] new.toUTF8
  let wish : Wish := { inputs := ["pets.json"] }
  have hc : CommandLine.parse ["list", "-i", "pets.json"] none = .ok (some (.list wish)) := by
    rfl
  have hold : Settings.ofText? "" = some {} := by decide +kernel
  have hnew : Settings.ofText? new = some { source := { url := some "nowhere" } } := by
    decide +kernel
  have hs : w.settings none = _ := settings_machineOfPets hold
  have hs' : w'.settings none = _ := settings_machineOfPets hnew
  have hsettings : (w'.settings none).toOption.map Settings.unaddressed =
      (w.settings none).toOption.map Settings.unaddressed := by
    rw [hs, hs']
    rfl
  have haddressed : w.addressed wish = some none := by
    rw [World.addressed, hs]
    rfl
  have haddressed' : w'.addressed wish = none := by
    rw [World.addressed, hs']
    rfl
  have hacquired : w.acquired wish = some [{ definitions := some (.ofList [("Pet", {})]) }] := by
    rw [World.acquired_eq (List.cons_ne_nil _ _), haddressed, filed_machineOfPets]
    rfl
  have hacquired' : w'.acquired wish = none := by
    rw [World.acquired_eq (List.cons_ne_nil _ _), haddressed']
    cases w'.filed wish <;> rfl
  have hsame := h ["list", "-i", "pets.json"] (.list wish) w ["typepick.toml"] "".toUTF8 new.toUTF8
    hc (List.cons_ne_nil _ _) rfl rfl (walk_machineOfPets "") hsettings
  rw [Program.run_eq hc, Program.run_eq hc] at hsame
  have hcode := Command.code_of_acquired (c := .list wish) hacquired rfl rfl
  have hcode' := Command.code_of_not_acquired (c := .list wish) hacquired'
  exact absurd (hcode'.symm.trans (hsame.trans hcode)) (by decide)

end SchemaTypes
