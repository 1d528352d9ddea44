import SchemaTypes.Program
import SchemaTypes.Proofs.World.Acquiring

/-!
# Commands are all or nothing

Before a command puts out anything, it has its settings and all its documents. If
anything of that cannot be had, the first trouble in the order of settings, files and
address is told, and neither the files nor the output have changed. A file that has
been written holds the whole text, and nothing else has changed but that missing
directories around it have been made.
-/

set_option autoImplicit false

namespace SchemaTypes

open Acquisition (Wish)

namespace World

/-- What is wrong with the files that a user wishes to be read, the first one first. -/
def fileTroubles (w : World) (wish : Wish) : List Acquisition.Failure :=
  wish.inputs.filterMap fun path => failure? (w.document path)

def addressTroubles (w : World) (wish : Wish) (s : Source) : List Acquisition.Failure :=
  match wish.address s with
  | none => []
  | some url => (failure? (w.fetched (wish.request s url) s.retries)).toList

/-- What is wrong with the settings and with the files. -/
def localTroubles (w : World) (wish : Wish) : List Command.Failure :=
  (failure? (w.settings wish.settings)).toList.map .settings ++
    (w.fileTroubles wish).map .documents

/-- All that is wrong, in the order of settings, files and address. The address is known
only if there are settings. -/
def troubles (w : World) (wish : Wish) : List Command.Failure :=
  w.localTroubles wish ++
    match w.settings wish.settings with
    | .error _ => []
    | .ok s => (w.addressTroubles wish s.source).map .documents

def generation (w : World) (wish : Wish) (overrides : Overrides) :
    Except Command.Failure Generation :=
  match w.settings wish.settings with
  | .error f => .error (.settings f)
  | .ok s =>
    match w.documents wish s.source with
    | .error f => .error (.documents f)
    | .ok docs => .ok (generate docs (overrides.apply s.options))

theorem documents_of_troubles {w : World} {wish : Wish} {s : Source} {f : Acquisition.Failure}
    {fs : List Acquisition.Failure}
    (h : w.fileTroubles wish ++ w.addressTroubles wish s = f :: fs) :
    w.documents wish s = .error f := by
  have hfiles := failure?_mapM w.document wish.inputs
  rw [← fileTroubles] at hfiles
  rw [documents]
  split
  · rename_i hsource
    rw [fileTroubles, hsource.1, addressTroubles, hsource.2] at h
    cases h
  cases hmap : wish.inputs.mapM w.document with
  | error e =>
    rw [hmap] at hfiles
    obtain ⟨gs, hgs⟩ := List.head?_eq_some_iff.mp hfiles.symm
    rw [hgs] at h
    cases h
    rfl
  | ok ds =>
    rw [hmap] at hfiles
    rw [List.head?_eq_none_iff.mp hfiles.symm, List.nil_append, addressTroubles] at h
    cases haddress : wish.address s with
    | none =>
      rw [haddress] at h
      cases h
    | some url =>
      rw [haddress] at h
      dsimp only at h
      cases hfetched : w.fetched (wish.request s url) s.retries with
      | ok d =>
        rw [hfetched] at h
        cases h
      | error e =>
        rw [hfetched] at h
        cases h
        show (w.fetched (wish.request s url) s.retries >>= _) = _
        rw [hfetched]
        rfl

theorem generation_of_troubles {w : World} {wish : Wish} {f : Command.Failure}
    {fs : List Command.Failure} (h : w.troubles wish = f :: fs) (overrides : Overrides) :
    w.generation wish overrides = .error f := by
  rw [troubles, localTroubles] at h
  rw [generation]
  cases hs : w.settings wish.settings with
  | error e =>
    rw [hs] at h
    cases h
    rfl
  | ok s =>
    rw [hs] at h
    dsimp only [failure?] at h ⊢
    rw [Option.toList_none, List.map_nil, List.nil_append, ← List.map_append,
      List.map_eq_cons_iff] at h
    obtain ⟨g, gs, hgs, rfl, _⟩ := h
    rw [documents_of_troubles hgs]

theorem generation_eq_ok_iff {w : World} {wish : Wish} {overrides : Overrides} {g : Generation} :
    w.generation wish overrides = .ok g ↔
      ∃ s docs, w.settings wish.settings = .ok s ∧ w.documents wish s.source = .ok docs ∧
        generate docs (overrides.apply s.options) = g := by
  rw [generation]
  cases w.settings wish.settings with
  | error f => exact ⟨nofun, nofun⟩
  | ok s =>
    constructor
    · intro h
      dsimp only at h
      cases hdocs : w.documents wish s.source with
      | error f =>
        rw [hdocs] at h
        cases h
      | ok docs =>
        rw [hdocs] at h
        cases h
        exact ⟨s, docs, rfl, hdocs, rfl⟩
    · rintro ⟨_, docs, hs, hdocs, rfl⟩
      cases hs
      dsimp only
      rw [hdocs]

theorem mapM_of_fileTroubles {w : World} {wish : Wish} (h : w.fileTroubles wish ≠ []) :
    (failure? (wish.inputs.mapM w.document)).isSome := by
  rw [failure?_mapM, ← fileTroubles]
  cases hfiles : w.fileTroubles wish with
  | nil => exact absurd hfiles h
  | cons f fs => rfl

theorem reportAll_tells (P : String → Prop) (lines : List String) (h : ∀ line ∈ lines, P line)
    (w : World) : w.Tells P ((Command.reportAll lines : StateM World Unit).run w).2 := by
  induction lines generalizing w with
  | nil => exact .refl P w
  | cons line lines ih =>
    rw [Command.reportAll, run_bind]
    exact (tells_report (h line List.mem_cons_self) w).trans
      (ih (fun l hl => h l (List.mem_cons_of_mem line hl)) _)

theorem documents_ne_ok {w : World} {wish : Wish} (h : w.fileTroubles wish ≠ []) (s : Source)
    (docs : List Schema.Document) : w.documents wish s ≠ .ok docs := by
  obtain ⟨f, fs, hfs⟩ := List.exists_cons_of_ne_nil h
  have htroubles : w.fileTroubles wish ++ w.addressTroubles wish s =
      f :: (fs ++ w.addressTroubles wish s) := by rw [hfs, List.cons_append]
  rw [documents_of_troubles htroubles]
  exact nofun

theorem fileTroubles_of_local {w : World} {wish : Wish} {s : Settings}
    (hs : w.settings wish.settings = .ok s) (h : w.localTroubles wish ≠ []) :
    w.fileTroubles wish ≠ [] := by
  intro hnil
  rw [localTroubles, hs, hnil] at h
  exact h rfl

theorem generation_run (wish : Wish) (overrides : Overrides) (w : World) :
    ∃ w', (Command.build wish overrides : StateM World _).run w =
      (w.generation wish overrides, w') ∧
      w.Tells (fun line => IsWarning line ∨ (w.generation wish overrides).isOk) w' ∧
      (w.localTroubles wish ≠ [] → w' = w) := by
  rw [Command.build, run_bind, settings_run, generation]
  cases hs : w.settings wish.settings with
  | error f => exact ⟨w, rfl, .refl _ w, fun _ => rfl⟩
  | ok s =>
    obtain ⟨w', hrun, htells, hsame⟩ := documents_run wish s.source w
    dsimp only
    rw [run_bind, hrun]
    cases hdocuments : w.documents wish s.source with
    | error f =>
      rw [hdocuments] at htells
      exact ⟨w', rfl, htells,
        fun hlocal => hsame (mapM_of_fileTroubles (fileTroubles_of_local hs hlocal))⟩
    | ok docs =>
      have hlines := reportAll_tells (fun line => IsWarning line ∨ true)
        (Command.findingLines (generate docs (overrides.apply s.options))) (fun _ _ => .inr rfl) w'
      rw [hdocuments] at htells
      exact ⟨_, rfl, htells.trans hlines, fun hlocal =>
        absurd hdocuments (documents_ne_ok (fileTroubles_of_local hs hlocal) s.source docs)⟩

end World

namespace Command

def wish : Command → Wish
  | .generate wish _ _ _ => wish
  | .search wish _ => wish
  | .list wish => wish

def overrides : Command → Overrides
  | .generate _ overrides _ _ => overrides
  | .search _ _ => {}
  | .list _ => {}

def target? : Command → Option String
  | .generate _ _ _ out => out
  | .search _ _ => none
  | .list _ => none

def text : Command → List Block → String
  | .generate _ _ encoding _, bs => encoding.render bs
  | .search _ query, bs => foundText (SchemaTypes.search query bs)
  | .list _, bs => namesText bs

/-- What a command does with its declarations. -/
def finish {m : Type → Type} [Monad m] [Host m] : Command → Generation → m (Except Failure Unit)
  | .generate _ _ encoding out, g => put out (encoding.render g.blocks)
  | .search _ query, g => do
    match ← put none (foundText (SchemaTypes.search query g.blocks)) with
    | .error f => return .error f
    | .ok () =>
      Host.report (foundSummary (SchemaTypes.search query g.blocks).length g.blocks.length)
      return .ok ()
  | .list _, g => put none (namesText g.blocks)

theorem finish_printed {c : Command} (h : c.target? = none) (g : Generation) {w : World}
    (hopen : w.obstacle (c.text g.blocks) = none) :
    ∃ lines, (c.finish g : StateM World (Except Failure Unit)).run w =
      (.ok (), { w with
        output := w.output ++ c.text g.blocks
        reports := w.reports ++ lines }) := by
  have hput := World.put_none_open hopen
  cases c with
  | generate wish overrides encoding out =>
    cases h
    refine ⟨[], ?_⟩
    rw [List.append_nil]
    exact hput
  | search wish query =>
    refine ⟨[foundSummary (SchemaTypes.search query g.blocks).length g.blocks.length], ?_⟩
    rw [text] at hput
    rw [finish, World.run_bind, hput]
    rfl
  | list wish =>
    refine ⟨[], ?_⟩
    rw [List.append_nil]
    exact hput

theorem finish_closed {c : Command} (h : c.target? = none) (g : Generation) {w : World}
    {fault : Files.Fault} (hclosed : w.obstacle (c.text g.blocks) = some fault) :
    (c.finish g : StateM World (Except Failure Unit)).run w =
      (.error (.output "stdout" fault), w) := by
  have hput := World.put_none_closed hclosed
  cases c with
  | generate wish overrides encoding out =>
    cases h
    exact hput
  | search wish query =>
    rw [text] at hput
    rw [finish, World.run_bind, hput]
    rfl
  | list wish => exact hput

theorem finish_written {c : Command} {path : String} (h : c.target? = some path) {g : Generation}
    {w w' : World} (hrun : (c.finish g : StateM World (Except Failure Unit)).run w = (.ok (), w')) :
    w'.output = w.output ∧
      Files.Tree.Written w.directory path (c.text g.blocks) w.files w'.files := by
  cases c with
  | generate wish overrides encoding out =>
    cases h
    exact World.put_some_ok hrun
  | search wish query => cases h
  | list wish => cases h

theorem execute_eq {m : Type → Type} [Monad m] [Host m] (c : Command) :
    (c.execute : m _) = (do
      match ← build c.wish c.overrides with
      | .error f => return .error f
      | .ok g => c.finish g) := by
  cases c <;> rfl

/-- A command that fails before it has its declarations tells why. -/
theorem run_of_error {c : Command} {w : World} {f : Failure}
    (h : w.generation c.wish c.overrides = .error f) :
    ∃ w', (c.run : StateM World Nat).run w =
      (1, { w' with reports := w'.reports ++ ["error: " ++ f.message] }) ∧
      w.Tells IsWarning w' ∧ (w.localTroubles c.wish ≠ [] → w' = w) := by
  obtain ⟨w', hrun, htells, hsame⟩ := World.generation_run c.wish c.overrides w
  rw [h] at hrun htells
  refine ⟨w', ?_, htells.mono fun line hline => hline.resolve_right Bool.false_ne_true, hsame⟩
  rw [run, World.run_bind, execute_eq, World.run_bind, hrun]
  rfl

theorem run_of_ok {c : Command} {w : World} {g : Generation}
    (h : w.generation c.wish c.overrides = .ok g) :
    ∃ between, w.Tells (fun _ => True) between ∧
      (c.run : StateM World Nat).run w =
        match (c.finish g : StateM World (Except Failure Unit)).run between with
        | (.ok (), w') => (0, w')
        | (.error f, w') => (1, { w' with reports := w'.reports ++ ["error: " ++ f.message] }) := by
  obtain ⟨between, hrun, htells, _⟩ := World.generation_run c.wish c.overrides w
  rw [h] at hrun
  refine ⟨between, htells.mono fun _ _ => trivial, ?_⟩
  rw [run, World.run_bind, execute_eq, World.run_bind, hrun]
  dsimp only
  generalize (c.finish g : StateM World (Except Failure Unit)).run between = result
  obtain ⟨r, w'⟩ := result
  cases r <;> rfl

theorem finish_of_run {c : Command} {w w' : World}
    (h : (c.run : StateM World Nat).run w = (0, w')) :
    ∃ g between, w.generation c.wish c.overrides = .ok g ∧ w.Tells (fun _ => True) between ∧
      (c.finish g : StateM World (Except Failure Unit)).run between = (.ok (), w') := by
  cases hg : w.generation c.wish c.overrides with
  | error f =>
    obtain ⟨_, hrun, _⟩ := run_of_error hg
    rw [h] at hrun
    cases hrun
  | ok g =>
    obtain ⟨between, htells, hrun⟩ := run_of_ok hg
    refine ⟨g, between, rfl, htells, ?_⟩
    rw [h] at hrun
    generalize (c.finish g : StateM World (Except Failure Unit)).run between = result at hrun ⊢
    obtain ⟨r, w''⟩ := result
    cases r with
    | error f => cases hrun
    | ok u =>
      cases hrun
      rfl

end Command

theorem Program.run_eq {args : List String} {c : Command} {w : World}
    (hc : CommandLine.parse args w.token = .ok (some c)) :
    (Program.run args : StateM World Nat).run w = (c.run : StateM World Nat).run w := by
  have htoken : (Host.token : StateM World (Option String)).run w = (w.token, w) := rfl
  rw [Program.run, World.run_bind, htoken]
  dsimp only
  rw [hc]

/-- A command that cannot have its settings or one of its documents exits with 1, tells
the first trouble and leaves files and output as they were; requests are sent only if
nothing is wrong before. Otherwise it puts out the whole text, or nothing if that is not
possible. If the text goes to a file, all other files stay as they were, and directories
may have been made on the way. -/
theorem Program.run_atomic {args : List String} {c : Command} {w : World}
    (hc : CommandLine.parse args w.token = .ok (some c)) :
    (∀ f fs, w.troubles c.wish = f :: fs →
      ∃ after warnings, (Program.run args : StateM World Nat).run w = (1, after) ∧
        after.output = w.output ∧ after.files = w.files ∧
        (∀ line ∈ warnings, IsWarning line) ∧
        after.reports = w.reports ++ warnings ++ ["error: " ++ f.message] ∧
        (w.localTroubles c.wish ≠ [] → after.requests = w.requests ∧ warnings = [])) ∧
    (∀ s docs, w.settings c.wish.settings = .ok s → w.documents c.wish s.source = .ok docs →
      c.target? = none →
      let text := c.text (generate docs (c.overrides.apply s.options)).blocks
      (w.obstacle text = none → ∃ after, (Program.run args : StateM World Nat).run w = (0, after) ∧
        after.files = w.files ∧ after.output = w.output ++ text) ∧
      ∀ fault, w.obstacle text = some fault →
        ∃ after lines, (Program.run args : StateM World Nat).run w = (1, after) ∧
          after.files = w.files ∧ after.output = w.output ∧
          after.reports =
            w.reports ++ lines ++ ["error: failed to write stdout: " ++ fault.message]) ∧
    (∀ path after, c.target? = some path →
      (Program.run args : StateM World Nat).run w = (0, after) →
      after.output = w.output ∧
        ∃ s docs, w.settings c.wish.settings = .ok s ∧
          w.documents c.wish s.source = .ok docs ∧
          Files.Tree.Written w.directory path
            (c.text (generate docs (c.overrides.apply s.options)).blocks)
            w.files after.files) := by
  rw [Program.run_eq hc]
  refine ⟨fun f fs hf => ?_, fun s docs hs hdocs htarget => ?_, fun path after htarget hrun => ?_⟩
  · obtain ⟨w', hrun, ⟨requests, pauses, warnings, hwarnings, rfl⟩, hsame⟩ :=
      Command.run_of_error (World.generation_of_troubles hf c.overrides)
    refine ⟨_, warnings, hrun, rfl, rfl, hwarnings, rfl, fun hlocal => ?_⟩
    have hrequests := congrArg World.requests (hsame hlocal)
    have hreports := congrArg World.reports (hsame hlocal)
    exact ⟨hrequests, List.append_cancel_left (hreports.trans (List.append_nil _).symm)⟩
  · obtain ⟨between, ⟨requests, pauses, lines, _, hbetween⟩, hrun⟩ :=
      Command.run_of_ok (World.generation_eq_ok_iff.mpr ⟨s, docs, hs, hdocs, rfl⟩)
    have hsame (text : String) : between.obstacle text = w.obstacle text := by rw [hbetween]; rfl
    rw [hrun]
    constructor
    · intro hopen
      obtain ⟨lines', hfinish⟩ := Command.finish_printed htarget _ ((hsame _).trans hopen)
      rw [hfinish, hbetween]
      exact ⟨_, rfl, rfl, rfl⟩
    · intro fault hclosed
      rw [Command.finish_closed htarget _ ((hsame _).trans hclosed), hbetween]
      exact ⟨_, lines, rfl, rfl, rfl, rfl⟩
  · obtain ⟨g, between, hg, ⟨requests, pauses, lines, _, rfl⟩, hfinish⟩ :=
      Command.finish_of_run hrun
    obtain ⟨s, docs, hs, hdocs, rfl⟩ := World.generation_eq_ok_iff.mp hg
    obtain ⟨houtput, hwritten⟩ := Command.finish_written htarget hfinish
    exact ⟨houtput, s, docs, hs, hdocs, hwritten⟩

/-- A list that needs a file which is not there, and a file written next to another. -/
theorem Program.run_atomic_pets :
    let text := "\x7b\x22definitions\x22:\x7b\x22Pet\x22:\x7b\x7d\x7d\x7d"
    let d : Schema.Document := { definitions := some (.ofList [("Pet", {})]) }
    let w : World := {
      files := .directory [("pets.json", .file text.toUTF8)]
      directory := []
      home := none
      answer := fun _ _ => none }
    let absent := ["list", "-i", "pets.json", "-i", "absent.json"]
    let writing := ["generate", "-i", "pets.json", "-o", "out/pets.ts"]
    CommandLine.parse absent none = .ok (some (.list { inputs := ["pets.json", "absent.json"] })) ∧
    CommandLine.parse writing none =
      .ok (some (.generate { inputs := ["pets.json"] } {} .typescript (some "out/pets.ts"))) ∧
    (∃ after, (Program.run absent : StateM World Nat).run w = (1, after) ∧ after.output = "" ∧
      after.files = w.files ∧ after.requests = [] ∧
      after.reports =
        ["error: failed to read absent.json: No such file or directory (os error 2)"]) ∧
    ∃ after, (Program.run writing : StateM World Nat).run w = (0, after) ∧ after.output = "" ∧
      w.documents { inputs := ["pets.json"] } {} = .ok [d] ∧
      Files.Tree.Written [] "out/pets.ts" (typescriptText (generate [d] {}).blocks) w.files
        after.files := by
  intro text d w absent writing
  have habsent : CommandLine.parse absent none =
      .ok (some (.list { inputs := ["pets.json", "absent.json"] })) := by rfl
  have hwriting : CommandLine.parse writing none =
      .ok (some (.generate { inputs := ["pets.json"] } {} .typescript (some "out/pets.ts"))) := by
    rfl
  have hread : w.files.read w.directory "pets.json" = .ok text :=
    Files.Tree.read_of_walk (p := ["pets.json"]) rfl rfl rfl rfl rfl
  have hform : Json.form? text =
      some (.object [(some "definitions", .object [(some "Pet", .object [])])]) := by
    decide +kernel
  have hdocument : w.document "pets.json" = .ok d := World.document_of_form hread rfl hform rfl
  have hmissing : w.document "absent.json" = .error (.unreadable "absent.json" .missing) := by rfl
  have hsettings : w.settings none = .ok {} := by
    have hcandidates : Settings.candidates w.directoryPath? w.home = ["/typepick.toml"] := by
      decide +kernel
    have hnothing : w.isFile "/typepick.toml" = false := by rfl
    rw [World.settings, hcandidates, List.find?_singleton, hnothing]
    rfl
  have htroubles : w.troubles { inputs := ["pets.json", "absent.json"] } =
      [.documents (.unreadable "absent.json" .missing)] := by
    rw [World.troubles, World.localTroubles, World.fileTroubles, hsettings]
    simp only [List.filterMap_cons, hdocument, hmissing]
    rfl
  have hdocuments : w.documents { inputs := ["pets.json"] } {} = .ok [d] := by
    rw [World.documents, if_neg (by simp), List.mapM_cons, hdocument]
    rfl
  have hgeneration : w.generation { inputs := ["pets.json"] } {} = .ok (generate [d] {}) := by
    rw [World.generation, hsettings]
    dsimp only
    rw [hdocuments]
    rfl
  refine ⟨habsent, hwriting, ?_, ?_⟩
  · obtain ⟨after, warnings, hrun, houtput, hfiles, _, hreports, hlocal⟩ :=
      (Program.run_atomic (w := w) habsent).1 _ _ htroubles
    obtain ⟨hrequests, rfl⟩ := hlocal (by
      rw [World.localTroubles, World.fileTroubles]
      simp [hdocument, hmissing, failure?, Command.wish])
    exact ⟨after, hrun, houtput, hfiles, hrequests, hreports⟩
  · obtain ⟨between, ⟨requests, pauses, lines, _, rfl⟩, hrun⟩ :=
      Command.run_of_ok
        (c := .generate { inputs := ["pets.json"] } {} .typescript (some "out/pets.ts")) hgeneration
    rw [← Program.run_eq hwriting] at hrun
    generalize hfinish : (Command.finish _ _ : StateM World _).run _ = result at hrun
    obtain ⟨r, after⟩ := result
    obtain rfl : r = .ok () := congrArg Prod.fst hfinish.symm
    obtain ⟨houtput, s, docs, hs, hdocs, hwritten⟩ :=
      (Program.run_atomic (w := w) hwriting).2.2 _ after rfl hrun
    cases hsettings.symm.trans hs
    cases hdocuments.symm.trans hdocs
    exact ⟨after, hrun, houtput, hdocuments, hwritten⟩

end SchemaTypes
