import SchemaTypes.Command
import SchemaTypes.Proofs.Files.Parent
import SchemaTypes.Proofs.Files.Place
import SchemaTypes.World

/-!
# Writing in a world

What making directories and writing a file do to a world: the files change, only
where they must, and nothing else does but for a line that tells of it.
-/

set_option autoImplicit false

namespace SchemaTypes

open Files (Fault Tree)

namespace Files.Tree

/-- A text has been written at the end of a path, and apart from that only missing
directories on the way have been made. It is there to be read, unless it went to a file
that may not be read; such a file keeps its access. -/
def Written (directory : List String) (path text : String) (t t' : Tree) : Prop :=
  ∃ place access, t'.walk (start directory path) (names path) = .ok place ∧
    t'.item? place = some (.file text.toUTF8 access) ∧
    (t.item? place = none ∧ access = {} ∨ ∃ old, t.item? place = some (.file old access)) ∧
    (access.read = none → t'.read directory path = .ok text) ∧
    ∀ q, q ≠ place → t'.item? q = t.item? q ∨
      t.item? q = none ∧ t'.item? q = some (.directory {}) ∧
        ∃ ns, ns <+: names path ∧ t'.walk (start directory path) ns = .ok q

theorem MakesWay.written {directory : List String} {path text : String} {t t' t'' : Tree}
    (hway : MakesWay directory path t t') (hwrite : t'.write directory path text = .ok t'') :
    Written directory path text t t'' := by
  obtain ⟨hgrows, place, access, hwalk, hitem, hbefore, hread, hrest⟩ := write_spec hwrite
  refine ⟨place, access, hwalk, hitem, ?_, hread, fun q hne => ?_⟩
  · rcases hway place with heq | ⟨hnone, hnew, -⟩
    · rw [← heq]
      exact hbefore
    · rw [hnew] at hbefore
      rcases hbefore with ⟨h, -⟩ | ⟨old, h⟩ <;> cases h
  · rw [hrest q hne]
    rcases hway q with heq | ⟨hnone, hnew, ns, hns, hwalk⟩
    · exact .inl heq
    · exact .inr ⟨hnone, hnew, ns, hns, hgrows.walk hwalk⟩

end Files.Tree

namespace World

variable {w w' w'' : World} {path parent : String}

theorem run_bind {α β : Type} (x : StateM World α) (f : α → StateM World β) (w : World) :
    (x >>= f).run w = (f (x.run w).1).run (x.run w).2 := rfl

/-- Directories have been made on the way of a path, and nothing else has changed. -/
def OpensWay (path : String) (w w' : World) : Prop :=
  ∃ files, w' = { w with files := files } ∧ Tree.MakesWay w.directory path w.files files

theorem OpensWay.refl (path : String) (w : World) : OpensWay path w w :=
  ⟨w.files, rfl, .refl w.files⟩

theorem OpensWay.trans (h : OpensWay path w w') (h' : OpensWay path w' w'') :
    OpensWay path w w'' := by
  obtain ⟨files, rfl, hway⟩ := h
  obtain ⟨files', rfl, hway'⟩ := h'
  exact ⟨files', rfl, hway.trans hway'⟩

theorem OpensWay.of_parent (h : OpensWay parent w w') (hparent : Path.parent? path = some parent)
    (hne : parent ≠ "") : OpensWay path w w' := by
  obtain ⟨files, rfl, hway⟩ := h
  exact ⟨files, rfl, hway.of_prefix (Tree.names_parent hparent hne)
    (Tree.start_parent hparent hne w.directory)⟩

theorem change_run (r : Except Fault Tree) (w : World) :
    (change r).run w =
      match r with
      | .ok files => (.ok (), { w with files := files })
      | .error f => (.error f, w) := by
  cases r <;> rfl

theorem write_run (path text : String) (w : World) :
    (Host.write path text : StateM World (Except Fault Unit)).run w =
      match w.files.write w.directory path text with
      | .ok files => (.ok (), { w with files := files })
      | .error f => (.error f, w) :=
  change_run _ w

theorem makeDirectory_opensWay (path : String) (w : World) :
    OpensWay path w ((Host.makeDirectory path : StateM World (Except Fault Unit)).run w).2 := by
  show OpensWay path w ((change (w.files.makeDirectory w.directory path)).run w).2
  rw [change_run]
  cases h : w.files.makeDirectory w.directory path with
  | error f => exact .refl path w
  | ok files => exact ⟨files, rfl, Tree.makesWay_of_makeDirectory h⟩

theorem isDirectory_run (path : String) (w : World) :
    ((Host.isDirectory path : StateM World Bool).run w).2 = w := by
  show ((match w.files.find w.directory path with
    | .ok t => return t.isDirectory
    | .error _ => return false : StateM World Bool).run w).2 = w
  cases w.files.find w.directory path <;> rfl

theorem unlessDirectory_run (path : String) (f : Fault) (w : World) :
    ((Host.unlessDirectory path f : StateM World (Except Fault Unit)).run w).2 = w := by
  rw [Host.unlessDirectory, run_bind, isDirectory_run]
  cases ((Host.isDirectory path : StateM World Bool).run w).1 <;> rfl

theorem makeDirectoriesWithin_empty (fuel : Nat) (w : World) :
    ((Host.makeDirectoriesWithin fuel "" : StateM World (Except Fault Unit)).run w).2 = w := by
  cases fuel <;> rfl

/-- An empty path is that of no directory, and none is made for it. -/
theorem opensWay_of_parent {fuel : Nat} (hparent : Path.parent? path = some parent)
    (h : OpensWay parent w
      ((Host.makeDirectoriesWithin fuel parent : StateM World (Except Fault Unit)).run w).2) :
    OpensWay path w
      ((Host.makeDirectoriesWithin fuel parent : StateM World (Except Fault Unit)).run w).2 := by
  by_cases hne : parent = ""
  · rw [hne, makeDirectoriesWithin_empty]
    exact .refl path w
  · exact h.of_parent hparent hne

/-- By induction on how many directories may be missing: those around the last one are
made first, and their way is a part of its way. -/
theorem makeDirectoriesWithin_opensWay (fuel : Nat) (path : String) (w : World) :
    OpensWay path w
      ((Host.makeDirectoriesWithin fuel path : StateM World (Except Fault Unit)).run w).2 := by
  induction fuel generalizing path w with
  | zero => exact .refl path w
  | succ fuel ih =>
    rw [Host.makeDirectoriesWithin]
    split
    · exact .refl path w
    have hmake := makeDirectory_opensWay path w
    rw [run_bind]
    split
    · exact hmake
    · split
      · exact hmake
      · rename_i parent hparent
        have hway := hmake.trans (opensWay_of_parent hparent (ih parent _))
        rw [run_bind]
        split
        · exact hway
        · have hagain := hway.trans (makeDirectory_opensWay path _)
          rw [run_bind]
          split
          · exact hagain
          · rw [unlessDirectory_run]
            exact hagain
    · rw [unlessDirectory_run]
      exact hmake

theorem makeParent_opensWay (path : String) (w : World) :
    OpensWay path w
      ((Command.makeParent path : StateM World (Except Command.Failure Unit)).run w).2 := by
  rw [Command.makeParent]
  split
  · exact .refl path w
  · rename_i parent hparent
    have hway :=
      opensWay_of_parent hparent (makeDirectoriesWithin_opensWay (parent.length + 1) parent w)
    rw [run_bind]
    split <;> exact hway

theorem obstacle_of_open (hopen : w.closed = none) (text : String) : w.obstacle text = none := by
  rw [obstacle, hopen, ite_self]

theorem print_eq (text : String) (w : World) :
    (Host.print text : StateM World (Except Fault Unit)).run w =
      (match w.obstacle text with
      | some f => return .error f
      | none => do
        set { w with output := w.output ++ text }
        return .ok () : StateM World (Except Fault Unit)).run w := rfl

theorem print_open {text : String} (hopen : w.obstacle text = none) :
    (Host.print text : StateM World (Except Fault Unit)).run w =
      (.ok (), { w with output := w.output ++ text }) := by
  rw [print_eq]
  split
  · rename_i f hclosed
    rw [hopen] at hclosed
    cases hclosed
  · rfl

theorem print_closed {text : String} {f : Fault} (hclosed : w.obstacle text = some f) :
    (Host.print text : StateM World (Except Fault Unit)).run w = (.error f, w) := by
  rw [print_eq, hclosed]
  rfl

theorem put_none_open {text : String} (hopen : w.obstacle text = none) :
    (Command.put none text : StateM World (Except Command.Failure Unit)).run w =
      (.ok (), { w with output := w.output ++ text }) := by
  rw [Command.put, run_bind, print_open hopen]
  rfl

theorem put_none_closed {text : String} {f : Fault} (hclosed : w.obstacle text = some f) :
    (Command.put none text : StateM World (Except Command.Failure Unit)).run w =
      (.error (.output "stdout" f), w) := by
  rw [Command.put, run_bind, print_closed hclosed]
  rfl

/-- A text that has been put out to a file is in that file. -/
theorem put_some_ok {text : String}
    (h : (Command.put (some path) text : StateM World _).run w = (.ok (), w')) :
    w'.output = w.output ∧ Tree.Written w.directory path text w.files w'.files := by
  obtain ⟨files, hstate, hway⟩ := makeParent_opensWay path w
  rw [Command.put, run_bind, hstate] at h
  split at h
  · cases h
  rw [run_bind, write_run] at h
  dsimp only at h
  cases hwrite : files.write w.directory path text with
  | error f =>
    rw [hwrite] at h
    cases h
  | ok files' =>
    rw [hwrite] at h
    cases h
    exact ⟨rfl, hway.written hwrite⟩

end World

end SchemaTypes
