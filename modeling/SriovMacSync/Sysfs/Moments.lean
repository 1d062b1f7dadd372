import Mathlib.Logic.Relation
import SriovMacSync.Interaction.Execution
import SriovMacSync.Sysfs.Assembling

namespace SriovMacSync.Sysfs

open Data Netlink Interaction Interaction.Action

/-! # A host that moves under the reading

Interfaces come, go and are renamed between any two files a reading opens.  What stands
behind an index stays as it is; while a reading lasts, a name an interface has given up
does not come back to it. -/

/-- What stands behind an interface for as long as its index lives. -/
structure Device where
  driver : Option String
  /-- the netdevs of its physical function, where it is a virtual one -/
  physfn : Option (List Index)
  /-- the last part of what `device` leads to -/
  own : Option String
  /-- the entries of `device/physfn`, and what they lead to -/
  entries : Option (List Text)
  target : Text → Option String

/-- The first of the entries that leads to this function. -/
def firstVirtfn (target : Text → Option String) (own : String) : List Text → Option UInt32
  | [] => none
  | entry :: rest =>
      match virtfnNumber entry with
      | none => firstVirtfn target own rest
      | some number => if target entry = some own then some number else firstVirtfn target own rest

def Device.vfNumber (device : Device) : Option UInt32 :=
  match device.own, device.entries with
  | some own, some entries => firstVirtfn device.target own entries
  | _, _ => none

structure Scene where
  called : Index → Option Name
  /-- who has ever been called what -/
  borne : Name → Index → Prop

structure Scene.Sound (scene : Scene) : Prop where
  alone {first second : Index} {name : Name} : scene.called first = some name →
    scene.called second = some name → first = second
  borne {index : Index} {name : Name} : scene.called index = some name → scene.borne name index

/-- An interface takes a name it never had and nobody has, or goes. -/
structure Renamed (before after : Scene) (index : Index) (name : Option Name) : Prop where
  fresh : ∀ taken ∈ name, ¬ before.borne taken index ∧ ∀ other, before.called other ≠ some taken
  called : after.called = Function.update before.called index name
  borne : ∀ other bearer, after.borne other bearer ↔ before.borne other bearer ∨ (bearer = index ∧ name = some other)

/-- Any number of renamings. -/
def Scene.Later : Scene → Scene → Prop :=
  Relation.ReflTransGen fun before after => ∃ index name, Renamed before after index name

/-- What the directory of a name answers: the files of who is called so, or nothing. -/
def Scene.At (scene : Scene) (name : Name) (here : Index → Prop) (absent : Prop) : Prop :=
  (∀ index, scene.called index = some name → here index) ∧
    ((∀ index, scene.called index ≠ some name) → absent)

/-- The answers of the directories at one moment. -/
def Scene.Replies (devices : Index → Device) (scene : Scene) :
    (request : SysfsCall) → SysfsReply request → Prop
  | .isDevice _, _ | .numvfs _, _ => True
  | .ifindex name, text =>
      scene.At name (fun index => ∀ number ∈ numberIn text, number = index) (text = none)
  | .driver name, driver => scene.At name (fun index => driver = (devices index).driver) (driver = none)
  | .device name, own => scene.At name (fun index => own = (devices index).own) (own = none)
  | .hasPhysfn name, isVf =>
      scene.At name (fun index => isVf = (devices index).physfn.isSome) (isVf = false)
  | .physfnNet name, netdevs =>
      scene.At name (fun index => ∀ names ∈ netdevs, ∀ netdev ∈ names,
        ∃ pf ∈ (devices index).physfn.getD [], scene.called pf = some netdev) (netdevs = none)
  | .physfnEntries name, entries =>
      scene.At name (fun index => entries = (devices index).entries) (entries = none)
  | .physfnEntry name entry, target =>
      scene.At name (fun index => target = (devices index).target entry) (target = none)

/-- Renamings before every file that is opened. -/
def moving (devices : Index → Device) : Environment SysfsCall SysfsReply Scene where
  permits _ _ := True
  answers scene request reply after := scene.Later after ∧ after.Replies devices request reply

variable {devices : Index → Device} {scene after : Scene} {name : Name} {index : Index}

namespace Scene

theorem Later.trans {middle : Scene} (first : scene.Later middle) (second : middle.Later after) :
    scene.Later after := Relation.ReflTransGen.trans first second

theorem Later.sound (later : scene.Later after) (sound : scene.Sound) : after.Sound := by
  induction later with
  | refl => exact sound
  | tail _ changed ih =>
      obtain ⟨renamed, taken, step⟩ := changed
      constructor
      · intro first second name here there
        rw [step.called] at here there
        by_cases left : first = renamed
        · by_cases right : second = renamed
          · rw [left, right]
          · rw [left, Function.update_self] at here
            rw [Function.update_of_ne right] at there
            exact absurd there ((step.fresh name here).2 second)
        · rw [Function.update_of_ne left] at here
          by_cases right : second = renamed
          · rw [right, Function.update_self] at there
            exact absurd here ((step.fresh name there).2 first)
          · rw [Function.update_of_ne right] at there
            exact ih.alone here there
      · intro index name here
        rw [step.called] at here
        rw [step.borne]
        by_cases same : index = renamed
        · rw [same, Function.update_self] at here
          exact .inr ⟨same, here⟩
        · rw [Function.update_of_ne same] at here
          exact .inl (ih.borne here)

theorem Later.borne (later : scene.Later after) (before : scene.borne name index) :
    after.borne name index := by
  induction later with
  | refl => exact before
  | tail _ changed ih =>
      obtain ⟨_, _, step⟩ := changed
      exact (step.borne _ _).mpr (.inl ih)

/-- The interface had the name and has it no more. -/
def Gone (scene : Scene) (name : Name) (index : Index) : Prop :=
  scene.borne name index ∧ scene.called index ≠ some name

theorem Later.gone (later : scene.Later after) (gone : scene.Gone name index) :
    after.Gone name index := by
  induction later with
  | refl => exact gone
  | tail _ changed ih =>
      obtain ⟨renamed, taken, step⟩ := changed
      refine ⟨(step.borne _ _).mpr (.inl ih.1), fun back => ?_⟩
      rw [step.called] at back
      by_cases same : index = renamed
      · subst same
        rw [Function.update_self] at back
        exact (step.fresh name back).1 ih.1
      · rw [Function.update_of_ne same] at back
        exact ih.2 back

/-- As long as the interface keeps the name, its directory is its own. -/
theorem At.own {here : Index → Prop} {absent : Prop} (answer : after.At name here absent)
    (borne : after.borne name index) : here index ∨ after.Gone name index := by
  by_cases called : after.called index = some name
  · exact .inl (answer.1 index called)
  · exact .inr ⟨borne, called⟩

end Scene

end SriovMacSync.Sysfs
