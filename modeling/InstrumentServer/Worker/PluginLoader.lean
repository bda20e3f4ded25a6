import InstrumentServer.Lib.SharedHandles
import InstrumentServer.Lib.Transition
import InstrumentServer.Worker.PluginCommand

/-!
# The plugin loader

A `PluginLoader` opens the library of a plugin, looks up its four functions and calls them; its destructor shuts the plugin down and closes the library. A library that is opened again is the same library, with the same variables, and leaves the process with the last loader that closes it. Loaders are moved around and destroyed in any order.

`loaders_own_libraries` says that no order of these steps calls into a library that has left or closes one that is not open. `released_of_reachable` carries over to whole processes what the functions of a plugin keep, for what a plugin takes from its surroundings and is to give back.
-/

namespace InstrumentServer

open SharedHandles Transition

/-- The functions that `dlsym` finds in a library. -/
structure PluginExports where
  pluginGetMetadata : Bool
  pluginInitialize : Bool
  pluginExecuteCommand : Bool
  pluginShutdown : Bool

/-- The code of a plugin: what its functions do to its own variables and to its surroundings. -/
structure PluginCode (Opening Exchange State World : Type) where
  /-- the variables as the library comes with them -/
  start : State
  pluginInitialize : Opening → State → World → State × World × Int32
  pluginExecuteCommand : Exchange → State → World → State × World × Int32
  pluginShutdown : State → World → State × World

structure PluginLoader (Library : Type) where
  handle : Option Library := none
  pluginPath : ByteString := []
  errorMessage : ByteString := []
  fnGetMetadata : Option Library := none
  fnInitialize : Option Library := none
  fnExecuteCommand : Option Library := none
  fnShutdown : Option Library := none
deriving DecidableEq

/-- A process with its loaders, each at the place where it was constructed, and the libraries it has open. -/
structure LoaderProcess (Library State World : Type) where
  loaders : List (Option (PluginLoader Library)) := []
  /-- how often a library was opened and not yet closed -/
  opens : Library → Nat := fun _ => 0
  statics : Library → State
  world : Library → World
  /-- a function was called in a library that is not open, or such a library was closed -/
  fault : Bool := false

inductive LoaderLabel (Library Opening Exchange : Type) where
  /-- `dlopen` gives a library or fails with a text -/
  | construct (path : ByteString) (opened : Except ByteString Library)
  | moveConstruct (i : Nat)
  /-- loader `i` is assigned the contents of loader `j` -/
  | moveAssign (i j : Nat)
  | destroy (i : Nat)
  | getMetadata (i : Nat)
  | initializePlugin (i : Nat) (opening : Opening)
  | executeCommand (i : Nat) (exchange : Exchange)
  | shutdown (i : Nat)

variable {Library Opening Exchange State World : Type} [DecidableEq Library]

namespace LoaderProcess

/-! ### What the system does -/

def dlopen (start : State) (p : LoaderProcess Library State World) (lib : Library) : LoaderProcess Library State World :=
  { p with
    opens := Function.update p.opens lib (p.opens lib + 1)
    statics := if p.opens lib = 0 then Function.update p.statics lib start else p.statics }

def dlclose (p : LoaderProcess Library State World) (lib : Library) : LoaderProcess Library State World :=
  if p.opens lib = 0 then { p with fault := true }
  else { p with opens := Function.update p.opens lib (p.opens lib - 1) }

/-- A call of a function in a library. -/
def enter (p : LoaderProcess Library State World) (lib : Library) (f : State → World → State × World × Int32) :
    LoaderProcess Library State World × Int32 :=
  if p.opens lib = 0 then ({ p with fault := true }, 0)
  else
    let result := f (p.statics lib) (p.world lib)
    ({ p with
        statics := Function.update p.statics lib result.1
        world := Function.update p.world lib result.2.1 }, result.2.2)

/-- The loader constructed as the `i`-th, if it was not destroyed. -/
def loader? (p : LoaderProcess Library State World) (i : Nat) : Option (PluginLoader Library) := p.loaders[i]?.join

def setLoader (p : LoaderProcess Library State World) (i : Nat) (l : Option (PluginLoader Library)) :
    LoaderProcess Library State World :=
  { p with loaders := p.loaders.set i l }

end LoaderProcess

/-! ### The functions of the loader -/

namespace PluginLoader

def loadSymbols (l : PluginLoader Library) (exports : PluginExports) : PluginLoader Library :=
  { l with
    fnGetMetadata := if exports.pluginGetMetadata then l.handle else none
    fnInitialize := if exports.pluginInitialize then l.handle else none
    fnExecuteCommand := if exports.pluginExecuteCommand then l.handle else none
    fnShutdown := if exports.pluginShutdown then l.handle else none }

def unload (p : LoaderProcess Library State World) (l : PluginLoader Library) :
    LoaderProcess Library State World × PluginLoader Library :=
  match l.handle with
  | some lib => (p.dlclose lib, { l with handle := none })
  | none => (p, l)

/-- The constructor, or the text it throws. -/
def construct (code : PluginCode Opening Exchange State World) (exports : Library → PluginExports)
    (p : LoaderProcess Library State World) (path : ByteString) :
    Except ByteString Library → LoaderProcess Library State World × Except ByteString (PluginLoader Library)
  | .error text => (p, .error (bytes "Failed to load library: " ++ text))
  | .ok lib =>
      let p := p.dlopen code.start lib
      let l := loadSymbols { handle := some lib, pluginPath := path } (exports lib)
      if l.fnGetMetadata = none ∨ l.fnInitialize = none ∨ l.fnExecuteCommand = none ∨ l.fnShutdown = none then
        ((unload p l).1, .error (bytes "Failed to load required plugin symbols"))
      else (p, .ok l)

/-- `get_metadata` throws without the function; what a plugin says of itself changes nothing. -/
def getMetadata (p : LoaderProcess Library State World) (l : PluginLoader Library) :
    Except ByteString (LoaderProcess Library State World) :=
  match l.fnGetMetadata with
  | none => .error (bytes "Plugin not loaded")
  | some lib => .ok (p.enter lib fun state world => (state, world, 0)).1

def initializePlugin (code : PluginCode Opening Exchange State World) (p : LoaderProcess Library State World)
    (l : PluginLoader Library) (opening : Opening) : LoaderProcess Library State World × Int32 :=
  match l.fnInitialize with
  | none => (p, -1)
  | some lib => p.enter lib (code.pluginInitialize opening)

def executeCommand (code : PluginCode Opening Exchange State World) (p : LoaderProcess Library State World)
    (l : PluginLoader Library) (exchange : Exchange) : LoaderProcess Library State World × Int32 :=
  match l.fnExecuteCommand with
  | none => (p, -1)
  | some lib => p.enter lib (code.pluginExecuteCommand exchange)

def shutdown (code : PluginCode Opening Exchange State World) (p : LoaderProcess Library State World)
    (l : PluginLoader Library) : LoaderProcess Library State World :=
  match l.fnShutdown with
  | none => p
  | some lib =>
      (p.enter lib fun state world => ((code.pluginShutdown state world).1, (code.pluginShutdown state world).2, 0)).1

/-- The destructor. -/
def destroy (code : PluginCode Opening Exchange State World) (p : LoaderProcess Library State World)
    (l : PluginLoader Library) : LoaderProcess Library State World :=
  if l.fnShutdown.isSome ∧ l.handle.isSome then (unload (shutdown code p l) l).1 else (unload p l).1

/-- What is left of a loader whose contents were moved away. -/
def emptied : PluginLoader Library := {}

end PluginLoader

namespace LoaderProcess

/-- Only a loader that is there can be used. The contents of a loader that is moved are the new loader. -/
def step (code : PluginCode Opening Exchange State World) (exports : Library → PluginExports)
    (p : LoaderProcess Library State World) :
    LoaderLabel Library Opening Exchange → Option (LoaderProcess Library State World)
  | .construct path opened =>
      match PluginLoader.construct code exports p path opened with
      | (p, .ok l) => some { p with loaders := p.loaders ++ [some l] }
      | (p, .error _) => some p
  | .moveConstruct i =>
      (p.loader? i).map fun l =>
        { p with loaders := p.loaders.set i (some PluginLoader.emptied) ++ [some l] }
  | .moveAssign i j =>
      match p.loader? i, p.loader? j with
      | some old, some other =>
          if i = j then some p
          else some (((PluginLoader.unload p old).1.setLoader i (some other)).setLoader j (some PluginLoader.emptied))
      | _, _ => none
  | .destroy i => (p.loader? i).map fun l => (PluginLoader.destroy code p l).setLoader i none
  | .getMetadata i =>
      (p.loader? i).map fun l =>
        match PluginLoader.getMetadata p l with
        | .ok p => p
        | .error _ => p
  | .initializePlugin i opening => (p.loader? i).map fun l => (PluginLoader.initializePlugin code p l opening).1
  | .executeCommand i exchange => (p.loader? i).map fun l => (PluginLoader.executeCommand code p l exchange).1
  | .shutdown i => (p.loader? i).map fun l => PluginLoader.shutdown code p l

/-- A process that begins without loaders, in surroundings of its own. -/
def system (code : PluginCode Opening Exchange State World) (exports : Library → PluginExports) (world : Library → World) :
    System (LoaderProcess Library State World) (LoaderLabel Library Opening Exchange) where
  init := { statics := fun _ => code.start, world }
  step := step code exports

end LoaderProcess

/-! ### Who holds a library -/

/-- All four functions come from the library that the loader holds, or there are none. -/
structure PluginLoader.Whole (l : PluginLoader Library) : Prop where
  getMetadata : l.fnGetMetadata = l.handle
  initializePlugin : l.fnInitialize = l.handle
  executeCommand : l.fnExecuteCommand = l.handle
  shutdown : l.fnShutdown = l.handle

structure LoaderInv (p : LoaderProcess Library State World) : Prop where
  noFault : p.fault = false
  counted : Counted PluginLoader.handle p.loaders p.opens
  whole : ∀ l, some l ∈ p.loaders → l.Whole

variable {code : PluginCode Opening Exchange State World} {exports : Library → PluginExports} {world : Library → World}
  {p q : LoaderProcess Library State World} {i j : Nat} {l other : PluginLoader Library} {lib : Library}

omit [DecidableEq Library] in
theorem LoaderProcess.loader?_eq_some_iff : p.loader? i = some l ↔ p.loaders[i]? = some (some l) := by
  rw [loader?, Option.join_eq_some_iff]

theorem LoaderProcess.enter_of_open (hopen : 0 < p.opens lib) (f : State → World → State × World × Int32) :
    (p.enter lib f).1 =
      { p with
        statics := Function.update p.statics lib (f (p.statics lib) (p.world lib)).1
        world := Function.update p.world lib (f (p.statics lib) (p.world lib)).2.1 } := by
  rw [enter, if_neg hopen.ne']

theorem LoaderProcess.dlclose_of_open (hopen : 0 < p.opens lib) :
    p.dlclose lib = { p with opens := Function.update p.opens lib (p.opens lib - 1) } := by
  rw [dlclose, if_neg hopen.ne']

omit [DecidableEq Library] in
theorem PluginLoader.whole_emptied : (PluginLoader.emptied : PluginLoader Library).Whole := ⟨rfl, rfl, rfl, rfl⟩

@[simp] theorem LoaderProcess.loaders_enter (p : LoaderProcess Library State World) (lib : Library)
    (f : State → World → State × World × Int32) : (p.enter lib f).1.loaders = p.loaders := by
  rw [enter]
  split <;> rfl

@[simp] theorem PluginLoader.loaders_unload (p : LoaderProcess Library State World) (l : PluginLoader Library) :
    (unload p l).1.loaders = p.loaders := by
  rw [unload]
  split
  · rw [LoaderProcess.dlclose]
    split <;> rfl
  · rfl

@[simp] theorem PluginLoader.loaders_shutdown (p : LoaderProcess Library State World) (l : PluginLoader Library) :
    (shutdown code p l).loaders = p.loaders := by
  rw [shutdown]
  split
  · rfl
  · exact LoaderProcess.loaders_enter _ _ _

/-- The constructor opens the library for the new loader, or changes nothing that can be seen of the libraries. -/
theorem PluginLoader.construct_cases (p : LoaderProcess Library State World) (path : ByteString)
    (opened : Except ByteString Library) :
    (∃ lib l, construct code exports p path opened = (p.dlopen code.start lib, .ok l) ∧ l.handle = some lib ∧ l.Whole) ∨
      ∃ q text, construct code exports p path opened = (q, .error text) ∧
        (q = p ∨ ∃ lib, q = { p with statics := (p.dlopen code.start lib).statics }) := by
  cases opened with
  | error text => exact Or.inr ⟨p, _, rfl, Or.inl rfl⟩
  | ok lib =>
      rw [construct]
      split
      · have hopen : 0 < (p.dlopen code.start lib).opens lib := by
          show 0 < Function.update p.opens lib (p.opens lib + 1) lib
          rw [Function.update_self]
          omega
        refine Or.inr ⟨_, _, rfl, Or.inr ⟨lib, ?_⟩⟩
        rw [unload]
        show (p.dlopen code.start lib).dlclose lib = _
        rw [LoaderProcess.dlclose_of_open hopen]
        show ({ p.dlopen code.start lib with
          opens := Function.update (Function.update p.opens lib (p.opens lib + 1)) lib
            (Function.update p.opens lib (p.opens lib + 1) lib - 1) } : LoaderProcess Library State World) = _
        rw [Function.update_self, Nat.add_sub_cancel, Function.update_idem, Function.update_eq_self]
        rfl
      · rename_i hall
        simp only [loadSymbols, not_or] at hall
        refine Or.inl ⟨lib, _, rfl, rfl, ⟨?_, ?_, ?_, ?_⟩⟩
        · exact if_pos (by_contra fun hmissing => hall.1 (if_neg hmissing))
        · exact if_pos (by_contra fun hmissing => hall.2.1 (if_neg hmissing))
        · exact if_pos (by_contra fun hmissing => hall.2.2.1 (if_neg hmissing))
        · exact if_pos (by_contra fun hmissing => hall.2.2.2 (if_neg hmissing))

namespace LoaderInv

theorem init : LoaderInv (LoaderProcess.system code exports world).init :=
  ⟨rfl, counted_nil, fun _ hl => absurd hl List.not_mem_nil⟩

theorem whole_of_loader? (h : LoaderInv p) (hl : p.loader? i = some l) : l.Whole :=
  h.whole l (List.mem_of_getElem? (LoaderProcess.loader?_eq_some_iff.mp hl))

theorem isOpen (h : LoaderInv p) (hl : p.loader? i = some l) (hlib : l.handle = some lib) : 0 < p.opens lib :=
  h.counted.pos (LoaderProcess.loader?_eq_some_iff.mp hl) hlib

/-- A call changes neither the loaders nor what is open. -/
theorem enter (h : LoaderInv p) (hopen : 0 < p.opens lib) (f : State → World → State × World × Int32) :
    LoaderInv (p.enter lib f).1 := by
  rw [LoaderProcess.enter_of_open hopen]
  exact ⟨h.noFault, h.counted, h.whole⟩

theorem shutdown (h : LoaderInv p) (hl : p.loader? i = some l) : LoaderInv (PluginLoader.shutdown code p l) := by
  rw [PluginLoader.shutdown, (h.whole_of_loader? hl).shutdown]
  split
  · exact h
  · rename_i lib hlib
    exact h.enter (h.isOpen hl hlib) _

theorem whole_set (h : LoaderInv p) {new : Option (PluginLoader Library)} (hnew : ∀ l, new = some l → l.Whole) :
    ∀ l, some l ∈ p.loaders.set i new → l.Whole := by
  intro l hmem
  rcases List.mem_or_eq_of_mem_set hmem with hold | hnewest
  · exact h.whole l hold
  · exact hnew l hnewest.symm

/-- The library of a loader is closed, and the loader has another one or none. -/
theorem unload (h : LoaderInv p) (hl : p.loader? i = some l) {new : Option (PluginLoader Library)}
    (hnew : new.bind PluginLoader.handle = none) (hwhole : ∀ l, new = some l → l.Whole) :
    LoaderInv ((PluginLoader.unload p l).1.setLoader i new) := by
  have hplace := LoaderProcess.loader?_eq_some_iff.mp hl
  rw [PluginLoader.unload]
  split
  · rename_i lib hlib
    have hopen := h.isOpen hl hlib
    dsimp only
    rw [LoaderProcess.dlclose_of_open hopen]
    exact ⟨h.noFault, h.counted.closed hplace hlib hnew, h.whole_set hwhole⟩
  · rename_i hnone
    exact ⟨h.noFault, h.counted.same hplace (hnew.trans hnone.symm), h.whole_set hwhole⟩

/-- A loader hands its contents over to another, which had none. -/
theorem moveTo (h : LoaderInv p) (hne : i ≠ j) (hempty : p.loader? i = some PluginLoader.emptied)
    (hother : p.loader? j = some other) :
    LoaderInv ((p.setLoader i (some other)).setLoader j (some PluginLoader.emptied)) := by
  have hwhole := h.whole_of_loader? hother
  refine ⟨h.noFault, h.counted.passedTo hne.symm (LoaderProcess.loader?_eq_some_iff.mp hother)
    (LoaderProcess.loader?_eq_some_iff.mp hempty) rfl rfl rfl, fun l hmem => ?_⟩
  rcases List.mem_or_eq_of_mem_set hmem with hold | hnewest
  · exact h.whole_set (fun l hl => Option.some.inj hl ▸ hwhole) l hold
  · exact Option.some.inj hnewest ▸ PluginLoader.whole_emptied

theorem step {label : LoaderLabel Library Opening Exchange} (h : LoaderInv p)
    (hnext : p.step code exports label = some q) : LoaderInv q := by
  cases label with
  | construct path opened =>
      rw [LoaderProcess.step] at hnext
      rcases @PluginLoader.construct_cases _ _ _ _ _ _ code exports p path opened with
        ⟨lib, l, hconstruct, hlib, hwhole⟩ | ⟨r, text, hconstruct, hr⟩
      · rw [hconstruct] at hnext
        obtain rfl := Option.some.inj hnext
        refine ⟨h.noFault, h.counted.opened hlib, fun l' hmem => ?_⟩
        rcases List.mem_append.mp hmem with hold | hnewest
        · exact h.whole l' hold
        · exact Option.some.inj (List.mem_singleton.mp hnewest) ▸ hwhole
      · rw [hconstruct] at hnext
        obtain rfl := Option.some.inj hnext
        rcases hr with rfl | ⟨lib, rfl⟩
        · exact h
        · exact ⟨h.noFault, h.counted, h.whole⟩
  | moveConstruct i =>
      obtain ⟨l, hl, rfl⟩ := Option.map_eq_some_iff.mp hnext
      refine ⟨h.noFault, h.counted.passed (LoaderProcess.loader?_eq_some_iff.mp hl) rfl rfl, fun l' hmem => ?_⟩
      rcases List.mem_append.mp hmem with hold | hnewest
      · exact h.whole_set (fun l hemptied => Option.some.inj hemptied ▸ PluginLoader.whole_emptied) l' hold
      · exact Option.some.inj (List.mem_singleton.mp hnewest) ▸ h.whole_of_loader? hl
  | moveAssign i j =>
      rw [LoaderProcess.step] at hnext
      split at hnext
      · rename_i old other hold hother
        split at hnext
        · obtain rfl := Option.some.inj hnext
          exact h
        · rename_i hne
          obtain rfl := Option.some.inj hnext
          have hfreed := @unload _ _ _ _ _ _ _ h hold (some PluginLoader.emptied) rfl
            (fun l hl => Option.some.inj hl ▸ PluginLoader.whole_emptied)
          have hplace := (List.getElem?_eq_some_iff.mp (LoaderProcess.loader?_eq_some_iff.mp hold)).1
          have hmoved := hfreed.moveTo hne
            (LoaderProcess.loader?_eq_some_iff.mpr (by simp [LoaderProcess.setLoader, hplace]))
            (LoaderProcess.loader?_eq_some_iff.mpr (by
              simp only [LoaderProcess.setLoader, PluginLoader.loaders_unload, List.getElem?_set_ne hne]
              exact LoaderProcess.loader?_eq_some_iff.mp hother))
          simpa only [LoaderProcess.setLoader, List.set_set] using hmoved
      · contradiction
  | destroy i =>
      obtain ⟨l, hl, rfl⟩ := Option.map_eq_some_iff.mp hnext
      rw [PluginLoader.destroy]
      split
      · refine (h.shutdown hl).unload (LoaderProcess.loader?_eq_some_iff.mpr ?_) rfl (by simp)
        rw [PluginLoader.loaders_shutdown]
        exact LoaderProcess.loader?_eq_some_iff.mp hl
      · exact h.unload hl rfl (by simp)
  | getMetadata i =>
      obtain ⟨l, hl, rfl⟩ := Option.map_eq_some_iff.mp hnext
      rw [PluginLoader.getMetadata, (h.whole_of_loader? hl).getMetadata]
      cases hlib : l.handle with
      | none => exact h
      | some lib => exact h.enter (h.isOpen hl hlib) _
  | initializePlugin i opening =>
      obtain ⟨l, hl, rfl⟩ := Option.map_eq_some_iff.mp hnext
      rw [PluginLoader.initializePlugin, (h.whole_of_loader? hl).initializePlugin]
      cases hlib : l.handle with
      | none => exact h
      | some lib => exact h.enter (h.isOpen hl hlib) _
  | executeCommand i exchange =>
      obtain ⟨l, hl, rfl⟩ := Option.map_eq_some_iff.mp hnext
      rw [PluginLoader.executeCommand, (h.whole_of_loader? hl).executeCommand]
      cases hlib : l.handle with
      | none => exact h
      | some lib => exact h.enter (h.isOpen hl hlib) _
  | shutdown i =>
      obtain ⟨l, hl, rfl⟩ := Option.map_eq_some_iff.mp hnext
      exact h.shutdown hl

end LoaderInv

/-- Whatever is done with the loaders of a process, no function is called in a library that is not open and none is closed that is not: a library is open once for every loader that holds it, and the functions of a loader are those of its library. -/
theorem loaders_own_libraries (hreach : Reachable (LoaderProcess.system code exports world) p) :
    p.fault = false ∧ (∀ lib, p.opens lib = holders PluginLoader.handle p.loaders lib) ∧
      ∀ l, some l ∈ p.loaders → l.Whole := by
  have h : LoaderInv p := hreach.invariant .init fun _ _ _ h hnext => h.step hnext
  exact ⟨h.noFault, h.counted, h.whole⟩

namespace LoaderProcess

/-- A plugin without variables that succeeds in everything. -/
def plainCode : PluginCode Unit Unit Unit Unit where
  start := ()
  pluginInitialize _ _ _ := ((), (), 0)
  pluginExecuteCommand _ _ _ := ((), (), 0)
  pluginShutdown _ _ := ((), ())

def allExports : PluginExports := ⟨true, true, true, true⟩

/-- Two loaders of one library; the second is moved and then assigned over the first, which is destroyed. -/
def assignedRun : List (LoaderLabel Unit Unit Unit) :=
  [.construct (bytes "visa_plugin.so") (.ok ()), .construct (bytes "visa_plugin.so") (.ok ()), .moveConstruct 1,
    .initializePlugin 2 (), .moveAssign 0 2, .executeCommand 0 (), .executeCommand 2 (), .destroy 0]

end LoaderProcess

open LoaderProcess in
theorem loaders_own_libraries_assignedRun :
    ∃ p : LoaderProcess Unit Unit Unit, Reachable (system plainCode (fun _ => allExports) fun _ => ()) p ∧
      p.loaders = [none, some {}, some {}] ∧ p.fault = false ∧ p.opens () = 0 := by
  obtain ⟨p, hreach, hloaders⟩ := @ReachableWhile.of_any _ _ (system plainCode (fun _ => allExports) fun _ => ())
    (fun _ _ => True) _ assignedRun (fun p => decide (p.loaders = [none, some {}, some {}])) (by decide +kernel)
  have hlist := of_decide_eq_true hloaders
  obtain ⟨hfault, hopens, -⟩ := loaders_own_libraries hreach
  exact ⟨p, hreach, hlist, hfault, by rw [hopens, hlist]; rfl⟩

/-! ### What a plugin gives back -/

/-- What the functions of a plugin keep: `Held` while the library is open, and `Clean` surroundings once it is shut down. `mayOpen` and `mayUse` say in which states of its variables it may be initialised and used. -/
structure PluginCode.Releases (code : PluginCode Opening Exchange State World) (Held : State → World → Prop)
    (Clean : World → Prop) (mayOpen : Opening → State → Prop) (mayUse : Exchange → State → Prop) : Prop where
  start : ∀ world, Clean world → Held code.start world
  opening : ∀ opening state world, mayOpen opening state → Held state world →
    Held (code.pluginInitialize opening state world).1 (code.pluginInitialize opening state world).2.1
  exchange : ∀ exchange state world, mayUse exchange state → Held state world →
    Held (code.pluginExecuteCommand exchange state world).1 (code.pluginExecuteCommand exchange state world).2.1
  shutdown : ∀ state world, Held state world →
    Held (code.pluginShutdown state world).1 (code.pluginShutdown state world).2 ∧
      Clean (code.pluginShutdown state world).2

namespace LoaderProcess

/-- No loader that holds a library is assigned another, and plugins are initialised and used only when they may be. -/
def Steady (mayOpen : Opening → State → Prop) (mayUse : Exchange → State → Prop) (p : LoaderProcess Library State World) :
    LoaderLabel Library Opening Exchange → Prop
  | .moveAssign i j => i = j ∨ ∀ l, p.loader? i = some l → l.handle = none
  | .initializePlugin i opening =>
      ∀ l lib, p.loader? i = some l → l.handle = some lib → mayOpen opening (p.statics lib)
  | .executeCommand i exchange =>
      ∀ l lib, p.loader? i = some l → l.handle = some lib → mayUse exchange (p.statics lib)
  | _ => True

variable (Held : State → World → Prop) (Clean : World → Prop)

def Settled (p : LoaderProcess Library State World) : Prop :=
  ∀ lib, (p.opens lib = 0 → Clean (p.world lib)) ∧ (0 < p.opens lib → Held (p.statics lib) (p.world lib))

variable {Held Clean} {mayOpen : Opening → State → Prop} {mayUse : Exchange → State → Prop}

namespace Settled

theorem enter (h : p.Settled Held Clean) (hopen : 0 < p.opens lib) {f : State → World → State × World × Int32}
    (hheld : Held (f (p.statics lib) (p.world lib)).1 (f (p.statics lib) (p.world lib)).2.1) :
    (p.enter lib f).1.Settled Held Clean := by
  rw [enter_of_open hopen]
  intro other
  dsimp only
  by_cases hother : other = lib
  · subst hother
    rw [Function.update_self, Function.update_self]
    exact ⟨fun hclosed => absurd hclosed hopen.ne', fun _ => hheld⟩
  · rw [Function.update_of_ne hother, Function.update_of_ne hother]
    exact h other

theorem dlclose (h : p.Settled Held Clean) (hopen : 0 < p.opens lib) (hclean : Clean (p.world lib)) :
    (p.dlclose lib).Settled Held Clean := by
  rw [dlclose_of_open hopen]
  intro other
  dsimp only
  by_cases hother : other = lib
  · subst hother
    exact ⟨fun _ => hclean, fun _ => (h other).2 hopen⟩
  · rw [Function.update_of_ne hother]
    exact h other

/-- The variables of a library that is not open do not matter. -/
theorem dlopen (h : p.Settled Held Clean) (hstart : ∀ world, Clean world → Held code.start world) (lib : Library) :
    (p.dlopen code.start lib).Settled Held Clean ∧
      ({ p with statics := (p.dlopen code.start lib).statics } : LoaderProcess Library State World).Settled Held Clean := by
  have hstatics : ∀ other, 0 < p.opens other → (p.dlopen code.start lib).statics other = p.statics other := by
    intro other hopen
    show (if p.opens lib = 0 then Function.update p.statics lib code.start else p.statics) other = _
    split
    · rename_i hclosed
      refine Function.update_of_ne (fun heq => ?_) _ _
      rw [heq] at hopen
      omega
    · rfl
  have hothers : ∀ other, (p.opens other = 0 → Clean (p.world other)) ∧
      (0 < p.opens other → Held ((p.dlopen code.start lib).statics other) (p.world other)) :=
    fun other => ⟨(h other).1, fun hopen => by rw [hstatics other hopen]; exact (h other).2 hopen⟩
  refine ⟨fun other => ?_, hothers⟩
  show (Function.update p.opens lib (p.opens lib + 1) other = 0 → Clean (p.world other)) ∧
    (0 < Function.update p.opens lib (p.opens lib + 1) other → Held ((p.dlopen code.start lib).statics other) (p.world other))
  by_cases heq : other = lib
  · subst heq
    rw [Function.update_self]
    refine ⟨fun hclosed => absurd hclosed (Nat.succ_ne_zero _), fun _ => ?_⟩
    by_cases hclosed : p.opens other = 0
    · show Held ((if p.opens other = 0 then Function.update p.statics other code.start else p.statics) other) _
      rw [if_pos hclosed, Function.update_self]
      exact hstart _ ((h other).1 hclosed)
    · exact (hothers other).2 (Nat.pos_of_ne_zero hclosed)
  · rw [Function.update_of_ne heq]
    exact hothers other

/-- After `plugin_shutdown` the surroundings are clean, and the loader still holds its library. -/
theorem shutdown (hrules : code.Releases Held Clean mayOpen mayUse) (h : p.Settled Held Clean) (hinv : LoaderInv p)
    (hl : p.loader? i = some l) (hlib : l.handle = some lib) :
    (PluginLoader.shutdown code p l).Settled Held Clean ∧ Clean ((PluginLoader.shutdown code p l).world lib) := by
  have hopen := hinv.isOpen hl hlib
  obtain ⟨hheld, hclean⟩ := hrules.shutdown _ _ ((h lib).2 hopen)
  rw [PluginLoader.shutdown, (hinv.whole_of_loader? hl).shutdown, hlib]
  dsimp only
  refine ⟨h.enter hopen hheld, ?_⟩
  rw [enter_of_open hopen]
  dsimp only
  rw [Function.update_self]
  exact hclean

theorem step (hrules : code.Releases Held Clean mayOpen mayUse) (h : p.Settled Held Clean) (hinv : LoaderInv p)
    {label : LoaderLabel Library Opening Exchange} (hsteady : p.Steady mayOpen mayUse label)
    (hnext : p.step code exports label = some q) : q.Settled Held Clean := by
  cases label with
  | construct path opened =>
      rw [LoaderProcess.step] at hnext
      rcases @PluginLoader.construct_cases _ _ _ _ _ _ code exports p path opened with
        ⟨lib, l, hconstruct, -, -⟩ | ⟨r, text, hconstruct, hr⟩
      · rw [hconstruct] at hnext
        obtain rfl := Option.some.inj hnext
        exact (h.dlopen hrules.start lib).1
      · rw [hconstruct] at hnext
        obtain rfl := Option.some.inj hnext
        rcases hr with rfl | ⟨lib, rfl⟩
        · exact h
        · exact (h.dlopen hrules.start lib).2
  | moveConstruct i =>
      obtain ⟨l, hl, rfl⟩ := Option.map_eq_some_iff.mp hnext
      exact h
  | moveAssign i j =>
      rw [LoaderProcess.step] at hnext
      split at hnext
      · rename_i old other hold _
        split at hnext
        · obtain rfl := Option.some.inj hnext
          exact h
        · rename_i hne
          obtain rfl := Option.some.inj hnext
          rw [PluginLoader.unload, hsteady.resolve_left hne old hold]
          exact h
      · contradiction
  | destroy i =>
      obtain ⟨l, hl, rfl⟩ := Option.map_eq_some_iff.mp hnext
      rw [PluginLoader.destroy]
      split
      · rename_i hboth
        obtain ⟨lib, hlib⟩ := Option.isSome_iff_exists.mp hboth.2
        obtain ⟨hsettled, hclean⟩ := h.shutdown hrules hinv hl hlib
        have hl' : (PluginLoader.shutdown code p l).loader? i = some l := by
          rw [loader?_eq_some_iff, PluginLoader.loaders_shutdown]
          exact loader?_eq_some_iff.mp hl
        rw [PluginLoader.unload, hlib]
        exact hsettled.dlclose ((hinv.shutdown hl).isOpen hl' hlib) hclean
      · rename_i hneither
        rw [(hinv.whole_of_loader? hl).shutdown, and_self, Bool.not_eq_true, Option.isSome_eq_false_iff,
          Option.isNone_iff_eq_none] at hneither
        rw [PluginLoader.unload, hneither]
        exact h
  | getMetadata i =>
      obtain ⟨l, hl, rfl⟩ := Option.map_eq_some_iff.mp hnext
      rw [PluginLoader.getMetadata, (hinv.whole_of_loader? hl).getMetadata]
      cases hlib : l.handle with
      | none => exact h
      | some lib => exact h.enter (hinv.isOpen hl hlib) ((h lib).2 (hinv.isOpen hl hlib))
  | initializePlugin i opening =>
      obtain ⟨l, hl, rfl⟩ := Option.map_eq_some_iff.mp hnext
      rw [PluginLoader.initializePlugin, (hinv.whole_of_loader? hl).initializePlugin]
      cases hlib : l.handle with
      | none => exact h
      | some lib =>
          have hopen := hinv.isOpen hl hlib
          exact h.enter hopen (hrules.opening opening _ _ (hsteady l lib hl hlib) ((h lib).2 hopen))
  | executeCommand i exchange =>
      obtain ⟨l, hl, rfl⟩ := Option.map_eq_some_iff.mp hnext
      rw [PluginLoader.executeCommand, (hinv.whole_of_loader? hl).executeCommand]
      cases hlib : l.handle with
      | none => exact h
      | some lib =>
          have hopen := hinv.isOpen hl hlib
          exact h.enter hopen (hrules.exchange exchange _ _ (hsteady l lib hl hlib) ((h lib).2 hopen))
  | shutdown i =>
      obtain ⟨l, hl, rfl⟩ := Option.map_eq_some_iff.mp hnext
      cases hlib : l.handle with
      | none =>
          rw [PluginLoader.shutdown, (hinv.whole_of_loader? hl).shutdown, hlib]
          exact h
      | some lib => exact (h.shutdown hrules hinv hl hlib).1

end Settled

/-- The rule for processes: once the last loader is gone, the surroundings of every library are clean. -/
theorem released_of_reachable (hrules : code.Releases Held Clean mayOpen mayUse) (hclean : ∀ lib, Clean (world lib))
    (hreach : ReachableWhile (system code exports world) (Steady mayOpen mayUse) p) :
    p.Settled Held Clean ∧ ((∀ l, some l ∉ p.loaders) → ∀ lib, Clean (p.world lib)) := by
  have hboth : LoaderInv p ∧ p.Settled Held Clean := by
    refine @ReachableWhile.invariant _ _ (system code exports world) _ (fun p => LoaderInv p ∧ p.Settled Held Clean)
      ⟨.init, fun lib => ⟨fun _ => hclean lib, fun hopen => absurd hopen (lt_irrefl 0)⟩⟩ ?_ p hreach
    exact fun s t label hs hsteady hnext => ⟨hs.1.step hnext, hs.2.step hrules hs.1 hsteady hnext⟩
  refine ⟨hboth.2, fun hgone lib => (hboth.2 lib).1 (hboth.1.counted.eq_zero (fun owner howner => ?_) lib)⟩
  cases owner with
  | none => rfl
  | some l => exact absurd howner (hgone l)

end LoaderProcess

end InstrumentServer
