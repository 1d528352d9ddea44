import SchemaTypes.Proofs.Command.Address
import SchemaTypes.Proofs.Settings.Layers

/-!
# Which settings a command goes by

A command consults at most one settings file. If that file is of no use, the command ends
there; other files and the defaults do not step in. Otherwise every setting is that of its
flag, or that of the file, or the default, and files that are not consulted do not count.
-/

set_option autoImplicit false

namespace SchemaTypes

open Acquisition (Wish)
open Toml (Table)

namespace World

variable {w w' : World} {wish : Wish} {v : Overrides}

/-- The settings file of the working directory, if that is there. -/
def localFile? (w : World) : Option String :=
  w.directoryPath?.map fun directory => Path.joined directory "typepick.toml"

def homeFile? (w : World) : Option String :=
  w.home.map fun home => Path.joined (Path.joined home ".typepick") "config.toml"

/-- The settings file that is consulted: the one that is named, or else the one in the working
directory, or else the one in the home directory. The last two must be there as files. -/
def consulted (w : World) : Option String → Option String
  | some path => some path
  | none => (w.localFile?.filter w.isFile).or (w.homeFile?.filter w.isFile)

theorem find?_toList {α : Type} (p : α → Bool) (a? : Option α) :
    a?.toList.find? p = a?.filter p := by
  cases a? with
  | none => rfl
  | some a => rw [Option.toList_some, List.find?_singleton, Option.filter_some]

theorem settings_eq (w : World) (named : Option String) :
    w.settings named =
      match w.consulted named with
      | some path => w.settingsAt path
      | none => .ok {} := by
  cases named with
  | some path => rfl
  | none =>
    have hcandidates : Settings.candidates w.directoryPath? w.home =
        w.localFile?.toList ++ w.homeFile?.toList := rfl
    have hconsulted : (Settings.candidates w.directoryPath? w.home).find? w.isFile =
        w.consulted none := by
      rw [consulted, hcandidates, List.find?_append, find?_toList, find?_toList]
    exact congrArg (fun | some path => w.settingsAt path | none => .ok {}) hconsulted

theorem settings_of_read {named : Option String} {path text : String}
    (hpath : w.consulted named = some path) (hread : w.files.read w.directory path = .ok text) :
    w.settings named =
      match Settings.ofText? text with
      | some s => .ok s
      | none => .error (.malformed path) := by
  rw [settings_eq, hpath]
  cases htext : Settings.ofText? text <;> simp only [settingsAt, hread, htext]

theorem settings_of_unreadable {named : Option String} {path : String} {fault : Files.Fault}
    (hpath : w.consulted named = some path) (hread : w.files.read w.directory path = .error fault) :
    w.settings named = .error (.unreadable path fault) := by
  rw [settings_eq, hpath]
  dsimp only
  rw [settingsAt, hread]

def effective (w : World) (wish : Wish) (v : Overrides) : Except Settings.Failure Settings :=
  (w.settings wish.settings).map fun s => s.under wish v

/-- What a command makes of its documents if it goes by these settings and by no flags. -/
def generated (w : World) (wish : Wish) (e : Settings) : Except Command.Failure Generation :=
  match w.documents { wish with url := none, language := none } e.source with
  | .error f => .error (.documents f)
  | .ok docs => .ok (generate docs e.options)

/-- Nothing of the flags and of the file counts but the settings that come out of them. -/
theorem generation_eq (w : World) (wish : Wish) (v : Overrides) :
    w.generation wish v =
      match w.effective wish v with
      | .error f => .error (.settings f)
      | .ok e => w.generated wish e := by
  rw [generation, effective]
  cases w.settings wish.settings with
  | error f => rfl
  | ok s => rfl

theorem effective_congr (hconsulted : w'.consulted wish.settings = w.consulted wish.settings)
    (hread : ∀ path, w.consulted wish.settings = some path →
      w'.files.read w'.directory path = w.files.read w.directory path) :
    w'.effective wish v = w.effective wish v := by
  rw [effective, effective, settings_eq, settings_eq, hconsulted]
  cases hpath : w.consulted wish.settings with
  | none => rfl
  | some path =>
    dsimp only
    rw [settingsAt, settingsAt, hread path hpath]

theorem AlikeBut.isFile {p : List String} (h : AlikeBut p w w') (path : String) :
    w'.isFile path = w.isFile path := by
  rw [World.isFile, World.isFile, h.directory]
  have hfind := h.files.find w.directory path
  generalize w.files.find w.directory path = r, w'.files.find w.directory path = r' at hfind
  cases hfind with
  | error f => rfl
  | ok hu => exact (Files.Tree.kind_of_emptied hu.1).2

theorem AlikeBut.directoryPath? {p : List String} (h : AlikeBut p w w') :
    w'.directoryPath? = w.directoryPath? := by
  rw [World.directoryPath?, World.directoryPath?, directoryPath, directoryPath, h.directory]
  rcases h.files.item?_cases w.directory with heq | ⟨-, c, c', access, hc, hc'⟩
  · rw [heq]
  · rw [hc, hc']

/-- What is in another file than the one that is consulted does not count. -/
theorem AlikeBut.effective {p : List String} (h : AlikeBut p w w') (hhome : w'.home = w.home)
    (hne : ∀ path, w.consulted wish.settings = some path →
      w.files.walk (Files.Tree.start w.directory path) (Files.Tree.names path) ≠ .ok p) :
    w'.effective wish v = w.effective wish v := by
  have hfile : w'.isFile = w.isFile := funext h.isFile
  have hlocal : w'.localFile? = w.localFile? := by
    rw [localFile?, localFile?, h.directoryPath?]
  apply effective_congr
  · cases wish.settings with
    | some path => rfl
    | none => rw [consulted, consulted, homeFile?, homeFile?, hhome, hfile, hlocal]
  · intro path hpath
    rw [h.directory, h.files.read (hne path hpath)]

def refused (w : World) (f : Settings.Failure) : Nat × World :=
  (1, { w with reports := w.reports ++ ["error: " ++ f.message] })

theorem run_refused {c : Command} {f : Settings.Failure}
    (h : w.settings c.wish.settings = .error f) :
    (c.run : StateM World Nat).run w = w.refused f := by
  have hgeneration : w.generation c.wish c.overrides = .error (.settings f) := by
    rw [generation, h]
  have hlocal : w.localTroubles c.wish ≠ [] := by
    rw [localTroubles, h]
    exact List.cons_ne_nil _ _
  obtain ⟨after, hrun, -, hsame⟩ := Command.run_of_error hgeneration
  rw [hrun, hsame hlocal]
  rfl

/-- A command has these settings in the end, and what it builds depends on them alone. -/
def GoesBy (w : World) (c : Command) (e : Settings) : Prop :=
  w.effective c.wish c.overrides = .ok e ∧
    ((Command.build c.wish c.overrides : StateM World _).run w).1 = w.generated c.wish e

theorem goesBy_of_settings {c : Command} {s : Settings}
    (h : w.settings c.wish.settings = .ok s) : w.GoesBy c (s.under c.wish c.overrides) := by
  have heffective : w.effective c.wish c.overrides = .ok (s.under c.wish c.overrides) := by
    rw [effective, h]
    rfl
  refine ⟨heffective, ?_⟩
  obtain ⟨after, hrun, -, -⟩ := generation_run c.wish c.overrides w
  rw [hrun, generation_eq, heffective]

end World

/-- A settings file that is consulted and cannot be read, or is no settings file, ends the
command with exit code 1 and leaves files and output as they were. Otherwise a command goes by
its effective settings alone: each one is that of its flag, or else what the file says of it,
or else the default. What the file says is under the key of the setting if that is in a table,
and at its place if a list stands for the table. Worlds in which the same file is consulted,
with the same content, have the same effective settings, and the content of a file that is
not consulted does not count. -/
theorem Program.run_layered {args : List String} {c : Command} {w : World}
    (hc : CommandLine.parse args w.token = .ok (some c)) :
    let named := c.wish.settings
    let read := fun path => w.files.read w.directory path
    (∀ path fault, w.consulted named = some path → read path = .error fault →
      (Program.run args : StateM World Nat).run w = w.refused (.unreadable path fault)) ∧
    (∀ path text, w.consulted named = some path → read path = .ok text →
      Settings.ofText? text = none →
      (Program.run args : StateM World Nat).run w = w.refused (.malformed path)) ∧
    (∀ path text, w.consulted named = some path → read path = .ok text →
      Settings.ofText? text ≠ none →
      ∃ t e, Table.ofText? text = some t ∧ w.GoesBy c e ∧
        ∀ k : Setting, k.Layered (k.flag? c.wish c.overrides) (k.said? t) (k.get e) ∧
          ((∀ v, Entries.get? t k.table = some v → ∃ o entries, v = .table o entries) →
            k.said? t = k.keyed? t)) ∧
    (w.consulted named = none →
      ∃ e, w.GoesBy c e ∧ ∀ k : Setting, k.Layered (k.flag? c.wish c.overrides) none (k.get e)) ∧
    (∀ w' : World, w'.consulted named = w.consulted named →
      (∀ path, w.consulted named = some path → w'.files.read w'.directory path = read path) →
      w'.effective c.wish c.overrides = w.effective c.wish c.overrides) ∧
    (∀ p old access new, w.files.get? p = some (.file old access) →
      (∀ path, w.consulted named = some path →
        w.files.walk (Files.Tree.start w.directory path) (Files.Tree.names path) ≠ .ok p) →
      (w.rewritten p new).effective c.wish c.overrides = w.effective c.wish c.overrides) := by
  intro named read
  refine ⟨fun path fault hpath hread => ?_, fun path text hpath hread hno => ?_,
    fun path text hpath hread hsome => ?_, fun hpath => ?_,
    fun w' => World.effective_congr, fun p old access new hold hne => ?_⟩
  · rw [Program.run_eq hc]
    exact World.run_refused (World.settings_of_unreadable hpath hread)
  · rw [Program.run_eq hc]
    apply World.run_refused
    rw [World.settings_of_read hpath hread, hno]
  · obtain ⟨s, hs⟩ := Option.ne_none_iff_exists'.mp hsome
    obtain ⟨t, ht, hlayered⟩ := Setting.layered_of_ofText? hs
    have hsettings : w.settings named = .ok s := by
      rw [World.settings_of_read hpath hread, hs]
    exact ⟨t, _, ht, World.goesBy_of_settings hsettings, fun k =>
      ⟨Setting.layered_under (hlayered k) _ _, Setting.said?_eq_keyed?⟩⟩
  · have hsettings : w.settings named = .ok {} := by
      rw [World.settings_eq, hpath]
    exact ⟨_, World.goesBy_of_settings hsettings, fun k =>
      Setting.layered_under (Setting.layered_default k) _ _⟩
  · exact (World.alikeBut_rewritten hold new).effective rfl hne

theorem consulted_machineOfPets (text : String) :
    (machineOfPets text).consulted none = some "/typepick.toml" ∧
      (machineOfPets text).files.read (machineOfPets text).directory "/typepick.toml" =
        .ok text := by
  have hlocal : (machineOfPets text).localFile? = some "/typepick.toml" := by
    rw [World.localFile?, directoryPath?_machineOfPets]
    decide
  have hfile : (machineOfPets text).isFile "/typepick.toml" = true := by rfl
  refine ⟨?_, Files.Tree.read_of_walk (p := ["typepick.toml"]) rfl rfl rfl rfl rfl⟩
  rw [World.consulted, hlocal, Option.filter_some, if_pos hfile, Option.some_or]

/-- A marker in the file, a flag for sorting, and all else as it is by default. -/
theorem Program.run_layered_pets :
    let text := "generator.unknown_type = \x22unknown\x22\n"
    let w := machineOfPets text
    let c : Command := .generate { inputs := ["pets.json"] } { sort := true } .typescript none
    let e : Settings := { options := { marker := .unknown, sort := true } }
    CommandLine.parse ["generate", "-i", "pets.json", "--sort"] none = .ok (some c) ∧
      w.GoesBy c e := by
  intro text w c e
  have hc : CommandLine.parse ["generate", "-i", "pets.json", "--sort"] none = .ok (some c) := by
    rfl
  have htable : Table.ofText? text =
      some [("generator", .table .dotted [("unknown_type", .text "unknown")])] := by
    decide +kernel
  have hsettings : Settings.ofText? text = some { options := { marker := .unknown } } := by
    decide +kernel
  have hsome : Settings.ofText? text ≠ none := by
    rw [hsettings]
    exact Option.some_ne_none _
  obtain ⟨hpath, hread⟩ := consulted_machineOfPets text
  obtain ⟨t, e', ht, hgoes, hlayered⟩ :=
    (Program.run_layered (w := w) hc).2.2.1 _ text hpath hread hsome
  cases htable.symm.trans ht
  have hmarker : some Marker.unknown = some e'.options.marker := (hlayered .marker).1
  have hsort : e'.options.sort = true := (hlayered .sort).1
  have hcheck : e'.options.checkReferences = true := (hlayered .checkReferences).1
  have hurl : e'.source.url = none := (hlayered .url).1
  have hlanguage : e'.source.language = "ko" := (hlayered .language).1
  have htimeout : e'.source.timeout = 30 := (hlayered .timeout).1
  have hretries : e'.source.retries = 2 := (hlayered .retries).1
  obtain rfl : e' = e := by
    obtain ⟨⟨url, language, timeout, retries⟩, ⟨marker, sort, checkReferences⟩⟩ := e'
    cases hmarker
    cases hsort
    cases hcheck
    cases hurl
    cases hlanguage
    cases htimeout
    cases hretries
    rfl
  exact ⟨hc, hgoes⟩

/-- A list that stands for a table, and says something of a setting without its key. -/
theorem Program.not_layered_by_keys :
    ¬ ∀ (args : List String) (c : Command) (w : World) (path text : String) (t : Table)
      (e : Settings), CommandLine.parse args w.token = .ok (some c) →
      w.consulted c.wish.settings = some path →
      w.files.read w.directory path = .ok text → Table.ofText? text = some t →
      w.effective c.wish c.overrides = .ok e →
      ∀ k : Setting, k.Layered (k.flag? c.wish c.overrides) (k.keyed? t) (k.get e) := by
  intro h
  let text := "generator = [\x22unknown\x22]\n"
  let w := machineOfPets text
  let c : Command := .list { inputs := ["pets.json"] }
  have hc : CommandLine.parse ["list", "-i", "pets.json"] none = .ok (some c) := by rfl
  have htable : Table.ofText? text = some [("generator", .list [.text "unknown"])] := by
    decide +kernel
  have hsettings : Settings.ofText? text = some { options := { marker := .unknown } } := by
    decide +kernel
  obtain ⟨hpath, hread⟩ := consulted_machineOfPets text
  have heffective : w.effective c.wish c.overrides =
      .ok { options := { marker := .unknown } } := by
    rw [World.effective, show w.settings c.wish.settings = _ from settings_machineOfPets hsettings]
    rfl
  have hmarker : Marker.unknown = Marker.any :=
    h _ c w _ text _ _ hc hpath hread htable heffective .marker
  cases hmarker

end SchemaTypes
