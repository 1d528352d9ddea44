import SchemaTypes.Proofs.TypeScript.TypeReader

/-!
# A reader of interfaces

A machine that takes one lexeme after another and keeps the interfaces that it
has read. It reads exactly the files of the grammar. A comment is passed over,
but before a member it is the description of that member if it is written as one.
-/

set_option autoImplicit false

namespace SchemaTypes.TypeScript

/-- The interface that is being read: its members, last first, and the
description that waits for the next one. -/
structure Body where
  name : String
  members : List Member := []
  doc : Option String := none

inductive Place
  | outside
  | exported
  | declaring
  | named (name : String)
  | inside (b : Body)
  | keyed (b : Body) (key : String)
  | marked (b : Body) (key : String)
  | typing (b : Body) (key : String) (optional : Bool) (s : TypeState)

/-- The interfaces that have been read, last first, and the place in the next one. -/
structure Reader where
  declared : List Interface := []
  place : Place := .outside

/-- The description in the body of a comment between two asterisks and one. -/
def description? : List Char → Option String
  | '*' :: ' ' :: cs =>
    if cs.getLast? = some ' ' then some (String.ofList cs.dropLast) else none
  | _ => none

def Body.add (b : Body) (key : String) (optional : Bool) (t : TypeExpr) : Body :=
  { b with members := ⟨key, t, optional, b.doc⟩ :: b.members, doc := none }

namespace Reader

def step (r : Reader) (t : Token) : Option Reader :=
  match r.place with
  | .outside => if t = .word "export" then some { r with place := .exported } else none
  | .exported => if t = .word "interface" then some { r with place := .declaring } else none
  | .declaring =>
    match t with
    | .word n => if isTypeName n then some { r with place := .named n } else none
    | _ => none
  | .named n => if t = .sign '\x7b' then some { r with place := .inside { name := n } } else none
  | .inside b =>
    if t = .sign '\x7d' then some ⟨⟨b.name, b.members.reverse⟩ :: r.declared, .outside⟩
    else (keyOf? t).map fun k => { r with place := .keyed b k }
  | .keyed b k =>
    if t = .sign '?' then some { r with place := .marked b k }
    else if t = .sign ':' then some { r with place := .typing b k false {} }
    else none
  | .marked b k => if t = .sign ':' then some { r with place := .typing b k true {} } else none
  | .typing b k o s =>
    if t = .sign ';' then s.result?.map fun e => { r with place := .inside (b.add k o e) }
    else (s.step t).map fun s => { r with place := .typing b k o s }

/-- A comment counts only where a member can begin. -/
def note (r : Reader) (body : List Char) : Reader :=
  match r.place with
  | .inside b => { r with place := .inside { b with doc := (description? body).or b.doc } }
  | _ => r

def read (r : Reader) : Lexeme → Option Reader
  | .token t => r.step t
  | .comment body => some (r.note body)

def result? (r : Reader) : Option (List Interface) :=
  match r.place with
  | .outside => some r.declared.reverse
  | _ => none

end Reader

def interfaces? (ls : List Lexeme) : Option (List Interface) :=
  (ls.foldlM Reader.read {}).bind Reader.result?

def readModule? (text : String) : Option (List Interface) :=
  (lexemes? text.toList).bind interfaces?

/-- The interface that a text declares, if it declares one and nothing else. -/
def readInterface? (text : String) : Option Interface :=
  match readModule? text with
  | some [i] => some i
  | _ => none

def Member.bare (m : Member) : Member := { m with doc := none }

def Interface.bare (i : Interface) : Interface := { i with members := i.members.map Member.bare }

namespace Reader

theorem run_typing (declared : List Interface) (b : Body) (key : String) (optional : Bool)
    (ts : List Token) {s s' : TypeState} (h : ts.foldlM TypeState.step s = some s') :
    (ts.map .token).foldlM read ⟨declared, .typing b key optional s⟩ =
      some ⟨declared, .typing b key optional s'⟩ := by
  induction ts generalizing s with
  | nil =>
    cases h
    rfl
  | cons t ts ih =>
    rw [List.foldlM_cons] at h
    obtain ⟨u, hu, hrun⟩ := Option.bind_eq_some_iff.mp h
    have ht : t ≠ .sign ';' := by
      rintro rfl
      rw [TypeState.step_semicolon] at hu
      cases hu
    have hstep : step ⟨declared, .typing b key optional s⟩ t =
        some ⟨declared, .typing b key optional u⟩ := by
      simp only [step, if_neg ht, hu, Option.map_some]
    rw [List.map_cons, List.foldlM_cons, read, hstep]
    exact ih hrun

/-- A member takes the description that waits for it. -/
theorem run_isMember {ts : List Token} {m : Member} (h : IsMember ts m)
    (declared : List Interface) (b : Body) :
    (ts.map .token).foldlM read ⟨declared, .inside b⟩ =
      some ⟨declared, .inside (b.add m.name m.optional m.type)⟩ := by
  obtain ⟨k, us, hk, ht, _, rfl⟩ := h
  obtain ⟨s, hs, hr⟩ := TypeState.run_isType ht
  have hkey : step ⟨declared, .inside b⟩ k = some ⟨declared, .keyed b m.name⟩ := by
    have hne : k ≠ .sign '\x7d' := by
      rintro rfl
      cases hk
    simp only [step, if_neg hne, hk, Option.map_some]
  have hmark : ((mark m.optional ++ [Token.sign ':']).map .token).foldlM read
      ⟨declared, .keyed b m.name⟩ = some ⟨declared, .typing b m.name m.optional {}⟩ := by
    cases m.optional <;> rfl
  have hend : step ⟨declared, .typing b m.name m.optional s⟩ (.sign ';') =
      some ⟨declared, .inside (b.add m.name m.optional m.type)⟩ := by
    simp only [step, hr, if_true, Option.map_some]
  have hsplit : mark m.optional ++ .sign ':' :: (us ++ [.sign ';']) =
      mark m.optional ++ [.sign ':'] ++ (us ++ [.sign ';']) := by simp
  rw [List.map_cons, List.foldlM_cons, read, hkey, Option.bind_eq_bind, Option.bind_some, hsplit,
    List.map_append, List.foldlM_append, hmark, Option.bind_eq_bind, Option.bind_some,
    List.map_append, List.foldlM_append, run_typing declared b _ _ us hs, Option.bind_eq_bind,
    Option.bind_some, List.map_singleton, List.foldlM_cons, read, hend]
  rfl

theorem run_members {ts : List Token} {ms : List Member} (h : Spelled IsMember ts ms)
    (declared : List Interface) (b : Body) (hb : b.doc = none) :
    (ts.map .token).foldlM read ⟨declared, .inside b⟩ =
      some ⟨declared, .inside { b with members := ms.reverse ++ b.members }⟩ := by
  induction h generalizing b with
  | nil => rfl
  | @cons _ _ m ms head _ ih =>
    have hadd : b.add m.name m.optional m.type = { b with members := m :: b.members } := by
      obtain ⟨_, _, _, _, hd, _⟩ := head
      obtain ⟨name, type, optional, doc⟩ := m
      simp only at hd
      subst hd
      simp only [Body.add, hb]
    have hrest := ih { b with members := m :: b.members } hb
    rw [List.map_append, List.foldlM_append, run_isMember head declared b, Option.bind_eq_bind,
      Option.bind_some, hadd, hrest]
    simp

theorem run_header (declared : List Interface) {name : String} (h : isTypeName name = true) :
    ((header name).map .token).foldlM read { declared := declared } =
      some ⟨declared, .inside { name := name }⟩ := by
  simp [header, read, step, h]

theorem run_isInterface {ts : List Token} {i : Interface} (h : IsInterface ts i)
    (declared : List Interface) :
    (ts.map .token).foldlM read { declared := declared } =
      some { declared := i :: declared } := by
  obtain ⟨hn, us, hus, rfl⟩ := h
  have hmembers := run_members hus declared { name := i.name } rfl
  rw [List.map_append, List.foldlM_append, run_header declared hn, Option.bind_eq_bind,
    Option.bind_some, List.map_append, List.foldlM_append, hmembers]
  simp [read, step]

theorem run_isModule {ts : List Token} {is : List Interface} (h : IsModule ts is)
    (declared : List Interface) :
    (ts.map .token).foldlM read { declared := declared } =
      some { declared := is.reverse ++ declared } := by
  induction h generalizing declared with
  | nil => rfl
  | cons head _ ih =>
    rw [List.map_append, List.foldlM_append, run_isInterface head, Option.bind_eq_bind,
      Option.bind_some, ih]
    simp

/-- The tokens of the interface so far, descriptions apart. -/
def BodyReads (b : Body) (ts : List Token) : Prop :=
  isTypeName b.name = true ∧ ∃ us, Spelled IsMember us (b.members.reverse.map Member.bare) ∧
    ts = header b.name ++ us

theorem BodyReads.add {b : Body} {ts us : List Token} {key : String} {optional : Bool}
    {t : TypeExpr} (h : BodyReads b ts) (hm : IsMember us ⟨key, t, optional, none⟩) :
    BodyReads (b.add key optional t) (ts ++ us) := by
  obtain ⟨hn, vs, hvs, rfl⟩ := h
  have hall := hvs.concat hm
  refine ⟨hn, vs ++ us, ?_, by simp [Body.add]⟩
  simpa [Body.add, Member.bare] using hall

def PlaceReads : Place → List Token → Prop
  | .outside, ts => ts = []
  | .exported, ts => ts = [.word "export"]
  | .declaring, ts => ts = [.word "export", .word "interface"]
  | .named n, ts => isTypeName n = true ∧ ts = [.word "export", .word "interface", .word n]
  | .inside b, ts => BodyReads b ts
  | .keyed b k, ts => ∃ us t, BodyReads b us ∧ keyOf? t = some k ∧ ts = us ++ [t]
  | .marked b k, ts => ∃ us t, BodyReads b us ∧ keyOf? t = some k ∧ ts = us ++ [t, .sign '?']
  | .typing b k o s, ts =>
    ∃ us t vs, BodyReads b us ∧ keyOf? t = some k ∧ s.Reads vs ∧
      ts = us ++ t :: (mark o ++ .sign ':' :: vs)

/-- A reader stands for the tokens that lead to it. -/
def Reads (r : Reader) (ts : List Token) : Prop :=
  ∃ us vs, IsModule us (r.declared.reverse.map Interface.bare) ∧ PlaceReads r.place vs ∧
    ts = us ++ vs

theorem start_reads : TypeState.Reads {} [] :=
  ⟨[], [], .outermost [] (by simp), .wanting, rfl⟩

/-- What one more token leads to: a place that stands for all tokens so far, or the end of an
interface. -/
def Continues (declared : List Interface) (ts : List Token) (r : Reader) : Prop :=
  (r.declared = declared ∧ PlaceReads r.place ts) ∨
    ∃ i, r.declared = i :: declared ∧ IsInterface ts i.bare ∧ r.place = .outside

section Places

variable {declared : List Interface} {r : Reader} {ts : List Token} {t : Token}

theorem outside_step (h : PlaceReads .outside ts) (hs : step ⟨declared, .outside⟩ t = some r) :
    Continues declared (ts ++ [t]) r := by
  obtain ⟨rfl, hr⟩ := Option.ite_none_right_eq_some.mp hs
  cases hr
  rw [h]
  exact .inl ⟨rfl, rfl⟩

theorem exported_step (h : PlaceReads .exported ts) (hs : step ⟨declared, .exported⟩ t = some r) :
    Continues declared (ts ++ [t]) r := by
  obtain ⟨rfl, hr⟩ := Option.ite_none_right_eq_some.mp hs
  cases hr
  rw [h]
  exact .inl ⟨rfl, rfl⟩

theorem declaring_step (h : PlaceReads .declaring ts)
    (hs : step ⟨declared, .declaring⟩ t = some r) : Continues declared (ts ++ [t]) r := by
  cases t with
  | word n =>
    obtain ⟨hn, hr⟩ := Option.ite_none_right_eq_some.mp hs
    cases hr
    rw [h]
    exact .inl ⟨rfl, hn, rfl⟩
  | literal value => cases hs
  | sign c => cases hs

theorem named_step {n : String} (h : PlaceReads (.named n) ts)
    (hs : step ⟨declared, .named n⟩ t = some r) : Continues declared (ts ++ [t]) r := by
  obtain ⟨hn, rfl⟩ := h
  obtain ⟨rfl, hr⟩ := Option.ite_none_right_eq_some.mp hs
  cases hr
  exact .inl ⟨rfl, hn, [], .nil, rfl⟩

/-- The bracket ends the interface, and everything else begins a member. -/
theorem inside_step {b : Body} (h : BodyReads b ts) (hs : step ⟨declared, .inside b⟩ t = some r) :
    Continues declared (ts ++ [t]) r := by
  simp only [step] at hs
  split at hs
  · rename_i ht
    cases hs
    obtain ⟨hn, us, hus, rfl⟩ := h
    rw [ht]
    exact .inr ⟨_, rfl, ⟨hn, us, hus, List.append_assoc _ _ _⟩, rfl⟩
  · obtain ⟨k, hk, rfl⟩ := Option.map_eq_some_iff.mp hs
    exact .inl ⟨rfl, ts, t, h, hk, rfl⟩

theorem keyed_step {b : Body} {k : String} (h : PlaceReads (.keyed b k) ts)
    (hs : step ⟨declared, .keyed b k⟩ t = some r) : Continues declared (ts ++ [t]) r := by
  obtain ⟨us, u, hb, hk, rfl⟩ := h
  simp only [step] at hs
  split at hs
  · rename_i ht
    cases hs
    rw [ht]
    exact .inl ⟨rfl, us, u, hb, hk, List.append_assoc _ _ _⟩
  · obtain ⟨rfl, hr⟩ := Option.ite_none_right_eq_some.mp hs
    cases hr
    exact .inl ⟨rfl, us, u, [], hb, hk, start_reads, List.append_assoc _ _ _⟩

theorem marked_step {b : Body} {k : String} (h : PlaceReads (.marked b k) ts)
    (hs : step ⟨declared, .marked b k⟩ t = some r) : Continues declared (ts ++ [t]) r := by
  obtain ⟨us, u, hb, hk, rfl⟩ := h
  obtain ⟨rfl, hr⟩ := Option.ite_none_right_eq_some.mp hs
  cases hr
  exact .inl ⟨rfl, us, u, [], hb, hk, start_reads, List.append_assoc _ _ _⟩

/-- The semicolon ends the member. -/
theorem typing_step {b : Body} {k : String} {o : Bool} {s : TypeState}
    (h : PlaceReads (.typing b k o s) ts) (hs : step ⟨declared, .typing b k o s⟩ t = some r) :
    Continues declared (ts ++ [t]) r := by
  obtain ⟨us, u, vs, hb, hk, hvs, rfl⟩ := h
  simp only [step] at hs
  split at hs
  · rename_i ht
    obtain ⟨e, he, rfl⟩ := Option.map_eq_some_iff.mp hs
    have hm : IsMember (u :: (mark o ++ .sign ':' :: (vs ++ [.sign ';']))) ⟨k, e, o, none⟩ :=
      ⟨u, vs, hk, TypeState.isType_of_result? hvs he, rfl, rfl⟩
    have hadd := hb.add hm
    rw [ht]
    exact .inl ⟨rfl, by simpa [PlaceReads] using hadd⟩
  · obtain ⟨s', hs', rfl⟩ := Option.map_eq_some_iff.mp hs
    exact .inl ⟨rfl, us, u, _, hb, hk, TypeState.step_reads hvs hs', by simp⟩

theorem place_step {p : Place} (h : PlaceReads p ts) (hs : step ⟨declared, p⟩ t = some r) :
    Continues declared (ts ++ [t]) r := by
  cases p with
  | outside => exact outside_step h hs
  | exported => exact exported_step h hs
  | declaring => exact declaring_step h hs
  | named n => exact named_step h hs
  | inside b => exact inside_step h hs
  | keyed b k => exact keyed_step h hs
  | marked b k => exact marked_step h hs
  | typing b k o s => exact typing_step h hs

end Places

theorem step_reads {r r' : Reader} {ts : List Token} {t : Token} (h : r.Reads ts)
    (hs : r.step t = some r') : r'.Reads (ts ++ [t]) := by
  obtain ⟨us, vs, hus, hvs, rfl⟩ := h
  rcases place_step hvs hs with ⟨hd, hp⟩ | ⟨i, hd, hi, hp⟩
  · exact ⟨us, vs ++ [t], hd ▸ hus, hp, by simp⟩
  · refine ⟨us ++ (vs ++ [t]), [], ?_, by rw [hp]; rfl, by simp⟩
    rw [hd, List.reverse_cons, List.map_append]
    exact hus.concat hi

theorem note_reads {r : Reader} {ts : List Token} (h : r.Reads ts) (body : List Char) :
    (r.note body).Reads ts := by
  obtain ⟨us, vs, hus, hvs, rfl⟩ := h
  obtain ⟨declared, place⟩ := r
  cases place with
  | inside b => exact ⟨us, vs, hus, hvs, rfl⟩
  | _ => exact ⟨us, vs, hus, hvs, rfl⟩

theorem run_reads {r r' : Reader} {ts : List Token} {ls : List Lexeme} (h : r.Reads ts)
    (hr : ls.foldlM read r = some r') : r'.Reads (ts ++ tokensOf ls) := by
  induction ls generalizing r ts with
  | nil =>
    cases hr
    simpa [tokensOf] using h
  | cons l ls ih =>
    rw [List.foldlM_cons] at hr
    obtain ⟨s, hs, hrun⟩ := Option.bind_eq_some_iff.mp hr
    cases l with
    | token t => simpa [tokensOf] using ih (step_reads h hs) hrun
    | comment body =>
      cases hs
      exact ih (note_reads h body) hrun

end Reader

theorem interfaces?_of_isModule {ts : List Token} {is : List Interface} (h : IsModule ts is) :
    interfaces? (ts.map .token) = some is := by
  have hrun := Reader.run_isModule h []
  rw [interfaces?, hrun, Option.bind_some]
  simp [Reader.result?]

/-- What the reader finds is a file of the grammar once comments are left out. -/
theorem isModule_of_interfaces? {ls : List Lexeme} {is : List Interface}
    (h : interfaces? ls = some is) : IsModule (tokensOf ls) (is.map Interface.bare) := by
  obtain ⟨r, hr, hres⟩ := Option.bind_eq_some_iff.mp h
  have hstart : Reader.Reads {} [] := ⟨[], [], .nil, rfl, rfl⟩
  obtain ⟨us, vs, hus, hvs, heq⟩ := Reader.run_reads hstart hr
  unfold Reader.result? at hres
  split at hres
  · rename_i hp
    cases hres
    rw [hp] at hvs
    cases hvs
    rw [List.nil_append, List.append_nil] at heq
    rw [heq]
    exact hus
  · cases hres

theorem isModule_iff_of_interfaces? {ls : List Lexeme} {is : List Interface}
    (h : interfaces? ls = some is) (js : List Interface) :
    IsModule (tokensOf ls) js ↔ js = is.map Interface.bare := by
  have hmodule := isModule_of_interfaces? h
  constructor
  · intro hjs
    have hread := interfaces?_of_isModule hjs
    rw [interfaces?_of_isModule hmodule] at hread
    exact (Option.some.inj hread).symm
  · rintro rfl
    exact hmodule

end SchemaTypes.TypeScript
