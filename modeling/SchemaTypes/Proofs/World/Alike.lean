import SchemaTypes.Proofs.Files.Alike
import SchemaTypes.Proofs.World.Acquiring

/-!
# Worlds that differ in one file

What a command does with its declarations ends in the same way in two worlds that differ
in one file, puts out the same, and leaves worlds that differ in that file only: nothing
on the way reads a file.
-/

set_option autoImplicit false

namespace SchemaTypes

open Files (Fault)

namespace World

/-- Worlds with the same output, and with the same files but for the one at this place. -/
structure AlikeBut (p : List String) (w w' : World) : Prop where
  files : w.files.AlikeBut p w'.files
  directory : w'.directory = w.directory
  closed : w'.closed = w.closed
  output : w'.output = w.output

theorem AlikeBut.document {p : List String} {w w' : World} {path : String} (h : AlikeBut p w w')
    (hne : w.files.walk (Files.Tree.start w.directory path) (Files.Tree.names path) ≠ .ok p) :
    w'.document path = w.document path := by
  rw [World.document, World.document, h.directory, h.files.read hne]

theorem isDirectory_eq (path : String) (w : World) :
    (Host.isDirectory path : StateM World Bool).run w =
      (match w.files.find w.directory path with
        | .ok t => return t.isDirectory
        | .error _ => return false : StateM World Bool).run w := rfl

/-- A program that ends in the same way in two alike worlds, and leaves them alike. -/
def Respects {α : Type} (p : List String) (x : StateM World α) : Prop :=
  ∀ w w', AlikeBut p w w' → (x.run w').1 = (x.run w).1 ∧ AlikeBut p (x.run w).2 (x.run w').2

namespace Respects

variable {p : List String} {α β : Type}

theorem pure (a : α) : Respects p (return a) := fun _ _ h => ⟨rfl, h⟩

theorem bind {x : StateM World α} {f : α → StateM World β} (hx : Respects p x)
    (hf : ∀ a, Respects p (f a)) : Respects p (x >>= f) := by
  intro w w' h
  obtain ⟨heq, h⟩ := hx w w' h
  rw [run_bind, run_bind, heq]
  exact hf _ _ _ h

theorem print (text : String) : Respects p (Host.print text) := by
  intro w w' h
  have hsame : w'.obstacle text = w.obstacle text := by rw [obstacle, obstacle, h.closed]
  cases hclosed : w.obstacle text with
  | some f =>
    rw [print_closed hclosed, print_closed (hsame.trans hclosed)]
    exact ⟨rfl, h⟩
  | none =>
    rw [print_open hclosed, print_open (hsame.trans hclosed)]
    exact ⟨rfl, h.files, h.directory, h.closed, congrArg (· ++ text) h.output⟩

theorem report (line : String) : Respects p (Host.report line) := by
  intro w w' h
  exact ⟨rfl, h.files, h.directory, h.closed, h.output⟩

theorem change {r : World → Except Fault Files.Tree}
    (hr : ∀ w w', AlikeBut p w w' → Files.Agree (Files.Tree.AlikeBut p) (r w) (r w')) :
    Respects p (do World.change (r (← get))) := by
  intro w w' h
  show ((World.change (r w')).run w').1 = ((World.change (r w)).run w).1 ∧
    AlikeBut p ((World.change (r w)).run w).2 ((World.change (r w')).run w').2
  rw [change_run, change_run]
  have hagree := hr w w' h
  generalize r w = x, r w' = x' at hagree
  cases hagree with
  | error f => exact ⟨rfl, h⟩
  | ok hfiles => exact ⟨rfl, hfiles, h.directory, h.closed, h.output⟩

theorem makeDirectory (path : String) : Respects p (Host.makeDirectory path) :=
  change fun w w' h => by
    rw [h.directory]
    exact h.files.makeDirectory w.directory path

theorem write (path text : String) : Respects p (Host.write path text) :=
  change fun w w' h => by
    rw [h.directory]
    exact h.files.write w.directory path text

theorem isDirectory (path : String) : Respects p (Host.isDirectory path) := by
  intro w w' h
  rw [isDirectory_run, isDirectory_run, isDirectory_eq, isDirectory_eq, h.directory]
  refine ⟨?_, h⟩
  have hfind := h.files.find w.directory path
  generalize w.files.find w.directory path = r, w'.files.find w.directory path = r' at hfind
  cases hfind with
  | error f => rfl
  | @ok u u' hu =>
    dsimp only
    rw [(Files.Tree.kind_of_emptied hu.1).1]
    rfl

theorem unlessDirectory (path : String) (f : Fault) : Respects p (Host.unlessDirectory path f) := by
  apply (isDirectory path).bind
  rintro (_ | _) <;> exact pure _

/-- By induction on how many directories may be missing. -/
theorem makeDirectoriesWithin (fuel : Nat) (path : String) :
    Respects p (Host.makeDirectoriesWithin fuel path) := by
  induction fuel generalizing path with
  | zero => exact pure _
  | succ fuel ih =>
    rw [Host.makeDirectoriesWithin]
    split
    · exact pure _
    apply (makeDirectory path).bind
    intro made
    split
    · exact pure _
    · split
      · exact pure _
      · apply (ih _).bind
        intro around
        split
        · exact pure _
        · apply (makeDirectory path).bind
          intro again
          split
          · exact pure _
          · exact unlessDirectory path _
    · exact unlessDirectory path _

theorem makeParent (path : String) : Respects p (Command.makeParent path) := by
  rw [Command.makeParent]
  split
  · exact pure _
  · apply (makeDirectoriesWithin _ _).bind
    intro made
    split <;> exact pure _

theorem put (out : Option String) (text : String) : Respects p (Command.put out text) := by
  cases out with
  | none =>
    apply (print text).bind
    rintro (f | _)
    · exact pure _
    · exact pure _
  | some path =>
    apply (makeParent path).bind
    rintro (f | _)
    · exact pure _
    · apply (write path text).bind
      rintro (fault | _)
      · exact pure _
      · exact (report _).bind fun _ => pure _

end Respects

end World

end SchemaTypes
