import InstrumentServer.Lib.Strings
import InstrumentServer.Server.ConfiguredCommand
import InstrumentServer.Worker.PluginLoader
import InstrumentServer.Worker.VisaReply

/-!
# The sessions of the VISA plugins

A VISA plugin opens the resource manager and, through it, its instrument, and closes both when it is shut down. There are two such plugins, `visa_plugin.c` and `visa_builtin.cpp`. The sessions a library has opened are its surroundings: a session that is used or closed without being open is recorded as `stray`.

The first plugin closes what it has opened, once, in any process that does not initialise it twice over. The built-in one closes the resource manager a second time after an instrument that could not be opened.
-/

namespace InstrumentServer

open Transition

/-- The sessions of a library: the number of the next one and those that are open. -/
structure VisaSessions where
  next : Nat := 1
  opened : List Nat := []
  /-- a session was used or closed that was not open -/
  stray : Bool := false
deriving DecidableEq

namespace VisaSessions

/-- `viOpenDefaultRM` or `viOpen`, when it succeeds. -/
def viOpen (w : VisaSessions) : VisaSessions × Nat := ({ w with next := w.next + 1, opened := w.next :: w.opened }, w.next)

def viClose (w : VisaSessions) (session : Nat) : VisaSessions :=
  if session ∈ w.opened then { w with opened := w.opened.erase session } else { w with stray := true }

/-- `viWrite`, `viRead` or `viSetAttribute` -/
def use (w : VisaSessions) (session : Nat) : VisaSessions := if session ∈ w.opened then w else { w with stray := true }

/-- Nothing is open, and nothing was done to a session that was not. -/
structure Clean (w : VisaSessions) : Prop where
  opened : w.opened = []
  stray : w.stray = false
  next : 0 < w.next

theorem clean_new : Clean {} := ⟨rfl, rfl, Nat.one_pos⟩

end VisaSessions

/-- What `plugin_initialize` is given, and what the VISA library makes of it. -/
structure VisaOpening where
  config : PluginConfig
  /-- of `viOpenDefaultRM` -/
  rmStatus : Int32
  /-- of `viOpen` -/
  instrumentStatus : Int32
  /-- a call that fails sets the session to `VI_NULL` and does not leave it as it is -/
  nulls : Bool

/-- A session variable after a call that failed. -/
def VisaOpening.afterFailure (o : VisaOpening) (session : Nat) : Nat := if o.nulls then 0 else session

/-- The instrument cannot be opened, and the resource manager can. -/
def VisaOpening.HalfOpens (o : VisaOpening) : Prop := 0 ≤ o.rmStatus ∧ o.instrumentStatus < 0

/-! ### `visa_plugin.c` -/

namespace VisaPlugin

/-- `g_state` -/
structure Globals extends VisaPluginState where
  defaultRm : Nat := 0
  instrument : Nat := 0

def openSessions (C : CJsonLibrary) (o : VisaOpening) (state : Globals) (w : VisaSessions) :
    Globals × VisaSessions × Int32 :=
  match openSession C o.config.connectionJson.text with
  | none => (state, w, -1)
  | some session =>
      let state := { state with toVisaPluginState := { session with initialized := state.initialized } }
      if o.rmStatus < 0 then ({ state with defaultRm := o.afterFailure state.defaultRm }, w, -1)
      else
        let (w, rm) := w.viOpen
        let state := { state with defaultRm := rm }
        if o.instrumentStatus < 0 then ({ state with instrument := o.afterFailure state.instrument }, w.viClose rm, -1)
        else
          let (w, instrument) := w.viOpen
          -- the timeout is set, and then come the initialization commands
          let w := w.use instrument
          ({ state with instrument, initialized := true },
            (initCommands C o.config.apiDefinitionJson.text).foldl (fun w _ => w.use instrument) w, 0)

def exchange (e : PluginCommand × VisaExchange) (state : Globals) (w : VisaSessions) : Globals × VisaSessions × Int32 :=
  if !state.initialized then (state, w, -1)
  else
    let w := w.use state.instrument
    if e.2.writeStatus < 0 then (state, w, -1)
    else if !e.1.expectsResponse then (state, w, 0)
    else (state, w.use state.instrument, if e.2.readStatus < 0 then -1 else 0)

def closeSessions (state : Globals) (w : VisaSessions) : Globals × VisaSessions :=
  if state.initialized then
    let w := if state.instrument ≠ 0 then w.viClose state.instrument else w
    let w := if state.defaultRm ≠ 0 then w.viClose state.defaultRm else w
    ({ state with instrument := 0, defaultRm := 0, initialized := false }, w)
  else (state, w)

def code (C : CJsonLibrary) : PluginCode VisaOpening (PluginCommand × VisaExchange) Globals VisaSessions where
  start := {}
  pluginInitialize := openSessions C
  pluginExecuteCommand := exchange
  pluginShutdown := closeSessions

/-- The plugin is initialised only without sessions, unless its configuration has no address. -/
def MayOpen (C : CJsonLibrary) (o : VisaOpening) (state : Globals) : Prop :=
  (openSession C o.config.connectionJson.text).isSome = true → state.initialized = false

/-- The two sessions are open while the plugin is initialised, and otherwise there is none. -/
structure Held (state : Globals) (w : VisaSessions) : Prop where
  stray : w.stray = false
  next : 0 < w.next
  idle : state.initialized = false → w.opened = []
  busy : state.initialized = true → w.opened = [state.instrument, state.defaultRm] ∧
    state.instrument ≠ state.defaultRm ∧ state.instrument ≠ 0 ∧ state.defaultRm ≠ 0

end VisaPlugin

namespace VisaSessions

variable {w : VisaSessions} {session : Nat}

theorem use_of_mem (hsession : session ∈ w.opened) : w.use session = w := if_pos hsession

theorem foldl_use_of_mem {α : Type} (hsession : session ∈ w.opened) (l : List α) :
    l.foldl (fun w _ => w.use session) w = w := by
  induction l with
  | nil => rfl
  | cons _ l ih => rw [List.foldl_cons, use_of_mem hsession, ih]

theorem viClose_head {rest : List Nat} (hopened : w.opened = session :: rest) :
    w.viClose session = { w with opened := rest } := by
  rw [viClose, hopened, if_pos List.mem_cons_self, List.erase_cons_head]

theorem viClose_of_not_mem (hsession : session ∉ w.opened) : w.viClose session = { w with stray := true } := if_neg hsession

end VisaSessions

namespace VisaPlugin

/-- Without sessions, `openSessions` leaves two of them open or none. -/
theorem held_openSessions (C : CJsonLibrary) (o : VisaOpening) {state : Globals} {w : VisaSessions}
    (hinit : state.initialized = false) (h : Held state w) :
    Held (openSessions C o state w).1 (openSessions C o state w).2.1 := by
  have hopened := h.idle hinit
  rw [openSessions]
  cases openSession C o.config.connectionJson.text with
  | none => exact h
  | some session =>
      dsimp only
      split
      · exact ⟨h.stray, h.next, fun _ => hopened, fun hbusy => absurd (hinit.symm.trans hbusy) Bool.false_ne_true⟩
      · split
        · have hclosed : w.viOpen.1.viClose w.viOpen.2 = { w with next := w.next + 1, opened := [] } :=
            VisaSessions.viClose_head (by rw [VisaSessions.viOpen, hopened])
          rw [hclosed]
          exact ⟨h.stray, Nat.succ_pos _, fun _ => rfl, fun hbusy => absurd (hinit.symm.trans hbusy) Bool.false_ne_true⟩
        · have hmem : w.viOpen.1.viOpen.2 ∈ w.viOpen.1.viOpen.1.opened := List.mem_cons_self
          rw [VisaSessions.use_of_mem hmem, VisaSessions.foldl_use_of_mem hmem]
          have hnext := h.next
          refine ⟨h.stray, Nat.succ_pos _, fun hidle => absurd hidle (by simp), fun _ => ⟨?_, ?_, ?_, ?_⟩⟩
          · show [w.next + 1, w.next] ++ w.opened = _
            rw [hopened]
            rfl
          · exact Nat.succ_ne_self w.next
          · exact Nat.succ_ne_zero w.next
          · exact hnext.ne'

theorem openSessions_none {C : CJsonLibrary} {o : VisaOpening} (hnone : openSession C o.config.connectionJson.text = none)
    (state : Globals) (w : VisaSessions) : openSessions C o state w = (state, w, -1) := by
  rw [openSessions, hnone]

theorem exchange_eq {e : PluginCommand × VisaExchange} {state : Globals} {w : VisaSessions} (h : Held state w) :
    (exchange e state w).1 = state ∧ (exchange e state w).2.1 = w := by
  rw [exchange]
  cases hinit : state.initialized with
  | false => exact ⟨rfl, rfl⟩
  | true =>
      have hmem : state.instrument ∈ w.opened := by
        rw [(h.busy hinit).1]
        exact List.mem_cons_self
      simp only [Bool.not_true, Bool.false_eq_true, if_false, VisaSessions.use_of_mem hmem]
      split
      · exact ⟨rfl, rfl⟩
      · split <;> exact ⟨rfl, rfl⟩

theorem closeSessions_held {state : Globals} {w : VisaSessions} (h : Held state w) :
    Held (closeSessions state w).1 (closeSessions state w).2 ∧ (closeSessions state w).2.Clean := by
  rw [closeSessions]
  cases hinit : state.initialized with
  | false => exact ⟨h, h.idle hinit, h.stray, h.next⟩
  | true =>
      obtain ⟨hopened, -, hinstrument, hrm⟩ := h.busy hinit
      have hfirst := VisaSessions.viClose_head hopened
      have hsecond : ({ w with opened := [state.defaultRm] } : VisaSessions).viClose state.defaultRm =
          { w with opened := [] } := VisaSessions.viClose_head rfl
      simp only [if_true, if_pos hinstrument, if_pos hrm, hfirst, hsecond]
      exact ⟨⟨h.stray, h.next, fun _ => rfl, fun hbusy => absurd hbusy Bool.false_ne_true⟩, rfl, h.stray, h.next⟩

theorem releases (C : CJsonLibrary) :
    (code C).Releases Held VisaSessions.Clean (MayOpen C) fun _ _ => True where
  start w hclean :=
    ⟨hclean.stray, hclean.next, fun _ => hclean.opened, fun hbusy => absurd hbusy Bool.false_ne_true⟩
  opening o state w hmay h := by
    show Held (openSessions C o state w).1 (openSessions C o state w).2.1
    cases hsession : openSession C o.config.connectionJson.text with
    | none =>
        rw [openSessions_none hsession]
        exact h
    | some session => exact held_openSessions C o (hmay (by rw [hsession]; rfl)) h
  exchange e state w _ h := by
    obtain ⟨hstate, hworld⟩ := @exchange_eq e state w h
    show Held (VisaPlugin.exchange e state w).1 (VisaPlugin.exchange e state w).2.1
    rw [hstate, hworld]
    exact h
  shutdown state w h := closeSessions_held h

end VisaPlugin

open LoaderProcess in
/-- However the loaders of a process are used, the VISA plugin touches no session that is not open, and every session it has opened is closed once the last loader is gone, as long as it is not initialised while it has sessions and no loader is assigned over. -/
theorem visa_sessions_closed {Library : Type} [DecidableEq Library] {C : CJsonLibrary} {exports : Library → PluginExports}
    {p : LoaderProcess Library VisaPlugin.Globals VisaSessions}
    (hreach : ReachableWhile (system (VisaPlugin.code C) exports fun _ => {}) (Steady (VisaPlugin.MayOpen C) fun _ _ => True) p) :
    (∀ lib, (p.world lib).stray = false) ∧ ((∀ l, some l ∉ p.loaders) → ∀ lib, (p.world lib).opened = []) := by
  obtain ⟨hsettled, hgone⟩ := released_of_reachable (VisaPlugin.releases C) (fun _ => VisaSessions.clean_new) hreach
  refine ⟨fun lib => ?_, fun hnone lib => (hgone hnone lib).opened⟩
  rcases Nat.eq_zero_or_pos (p.opens lib) with hclosed | hopen
  · exact ((hsettled lib).1 hclosed).stray
  · exact ((hsettled lib).2 hopen).stray

/-- A configuration with an address, for an instrument that answers with the given status when it is opened. -/
def VisaOpening.gpib (instrumentStatus : Int32) : VisaOpening where
  config :=
    { instrumentName := .copy _ pluginMaxStringLen_pos (bytes "DMM1")
      connectionJson := .copy _ pluginMaxPayload_pos (bytes "\x7b\"address\": \"GPIB::5\"\x7d")
      apiDefinitionJson := .copy _ pluginMaxPayload_pos [] }
  rmStatus := 0
  instrumentStatus
  nulls := true

/-- The query that the instrument answers. -/
def gpibExchange : PluginCommand × VisaExchange :=
  (⟨.copy _ pluginMaxStringLen_pos [], .copy _ pluginMaxStringLen_pos [], .copy _ pluginMaxStringLen_pos (bytes "*IDN?"),
    [], Nat.zero_le _, true⟩, ⟨0, 0, bytes "DMM\n", by decide⟩)

open LoaderProcess in
theorem visa_sessions_closed_gpib :
    ∃ p : LoaderProcess Unit VisaPlugin.Globals VisaSessions, p.loaders = [none] ∧ (p.world ()).stray = false ∧
      (p.world ()).opened = [] := by
  obtain ⟨p, hreach, hloaders⟩ : ∃ p, ReachableWhile (system (VisaPlugin.code .compact) (fun _ => allExports) fun _ => {})
      (Steady (VisaPlugin.MayOpen .compact) fun _ _ => True) p ∧ p.loaders = [none] := by
    have hconstructed := @ReachableWhile.step _ _ (system (VisaPlugin.code .compact) (fun _ => allExports) fun _ => {})
      (Steady (VisaPlugin.MayOpen .compact) fun _ _ => True) _ _ (.construct (bytes "visa_plugin.so") (.ok ())) .init
      trivial rfl
    have hopened := @ReachableWhile.step _ _ _ _ _ _ (LoaderLabel.initializePlugin 0 (.gpib 0)) hconstructed
      (fun l lib _ _ _ => rfl) rfl
    have hused := @ReachableWhile.step _ _ _ _ _ _ (LoaderLabel.executeCommand 0 gpibExchange) hopened (fun _ _ _ _ => trivial) rfl
    exact ⟨_, @ReachableWhile.step _ _ _ _ _ _ (LoaderLabel.destroy 0) hused trivial rfl, rfl⟩
  obtain ⟨hstray, hclosed⟩ := visa_sessions_closed hreach
  exact ⟨p, hloaders, hstray (), hclosed (by simp [hloaders]) ()⟩

/-! ### `visa_builtin.cpp` -/

namespace VisaBuiltin

structure Globals where
  resourceAddress : ByteString := []
  defaultRm : Nat := 0
  instrument : Nat := 0

def addressKey : ByteString := bytes "\"address\": \""

/-- What stands between the first such key and the next quotation mark. -/
def address? (connectionJson : ByteString) : Option ByteString :=
  (ByteString.find? addressKey connectionJson).bind fun i =>
    let start := connectionJson.drop (i + addressKey.length)
    if 34 ∈ start then some (start.takeWhile (· ≠ 34)) else none

def openSessions (o : VisaOpening) (state : Globals) (w : VisaSessions) : Globals × VisaSessions × Int32 :=
  match address? o.config.connectionJson.text with
  | none => (state, w, -1)
  | some resourceAddress =>
      let state := { state with resourceAddress }
      if o.rmStatus < 0 then ({ state with defaultRm := o.afterFailure state.defaultRm }, w, o.rmStatus)
      else
        let (w, rm) := w.viOpen
        let state := { state with defaultRm := rm }
        if o.instrumentStatus < 0 then
          ({ state with instrument := o.afterFailure state.instrument }, w.viClose rm, o.instrumentStatus)
        else
          let (w, instrument) := w.viOpen
          ({ state with instrument }, w, 0)

def exchange (e : PluginCommand × VisaExchange) (state : Globals) (w : VisaSessions) : Globals × VisaSessions × Int32 :=
  let w := w.use state.instrument
  if e.2.writeStatus < 0 then (state, w, e.2.writeStatus)
  else if !e.1.expectsResponse then (state, w, 0)
  else (state, w.use state.instrument, if e.2.readStatus < 0 then e.2.readStatus else 0)

def closeSessions (state : Globals) (w : VisaSessions) : Globals × VisaSessions :=
  let w := if state.instrument ≠ 0 then w.viClose state.instrument else w
  let w := if state.defaultRm ≠ 0 then w.viClose state.defaultRm else w
  ({ state with instrument := 0, defaultRm := 0 }, w)

def code : PluginCode VisaOpening (PluginCommand × VisaExchange) Globals VisaSessions where
  start := {}
  pluginInitialize := openSessions
  pluginExecuteCommand := exchange
  pluginShutdown := closeSessions

/-- The plugin is initialised only without sessions and opens both or none, unless its configuration has no address. -/
def MayOpen (o : VisaOpening) (state : Globals) : Prop :=
  (address? o.config.connectionJson.text).isSome = true → state.defaultRm = 0 ∧ ¬ o.HalfOpens

/-- The plugin is used only with an instrument. -/
def MayUse (_ : PluginCommand × VisaExchange) (state : Globals) : Prop := state.instrument ≠ 0

structure Held (state : Globals) (w : VisaSessions) : Prop where
  stray : w.stray = false
  next : 0 < w.next
  idle : state.defaultRm = 0 → state.instrument = 0 ∧ w.opened = []
  busy : state.defaultRm ≠ 0 → w.opened = [state.instrument, state.defaultRm] ∧
    state.instrument ≠ state.defaultRm ∧ state.instrument ≠ 0

theorem afterFailure_zero (o : VisaOpening) : o.afterFailure 0 = 0 := by
  rw [VisaOpening.afterFailure, ite_self]

theorem held_openSessions {o : VisaOpening} {state : Globals} {w : VisaSessions} (hmay : MayOpen o state)
    (h : Held state w) : Held (openSessions o state w).1 (openSessions o state w).2.1 := by
  rw [openSessions]
  cases haddress : address? o.config.connectionJson.text with
  | none => exact h
  | some resourceAddress =>
      obtain ⟨hrm, hboth⟩ := hmay (by rw [haddress]; rfl)
      obtain ⟨hinstrument, hopened⟩ := h.idle hrm
      dsimp only
      split
      · rw [hrm, afterFailure_zero]
        exact ⟨h.stray, h.next, fun _ => ⟨hinstrument, hopened⟩, fun hbusy => absurd rfl hbusy⟩
      · rename_i hstatus
        rw [if_neg fun hfailed => hboth ⟨Int32.not_lt.mp hstatus, hfailed⟩]
        have hnext := h.next
        refine ⟨h.stray, Nat.succ_pos _, fun hidle => absurd hidle hnext.ne', fun _ => ⟨?_, ?_, ?_⟩⟩
        · show [w.next + 1, w.next] ++ w.opened = _
          rw [hopened]
          rfl
        · exact Nat.succ_ne_self w.next
        · exact Nat.succ_ne_zero w.next

theorem exchange_eq {e : PluginCommand × VisaExchange} {state : Globals} {w : VisaSessions} (hmay : MayUse e state)
    (h : Held state w) : (exchange e state w).1 = state ∧ (exchange e state w).2.1 = w := by
  have hmem : state.instrument ∈ w.opened := by
    rw [(h.busy fun hidle => hmay (h.idle hidle).1).1]
    exact List.mem_cons_self
  simp only [exchange, VisaSessions.use_of_mem hmem]
  split
  · exact ⟨rfl, rfl⟩
  · split <;> exact ⟨rfl, rfl⟩

theorem closeSessions_held {state : Globals} {w : VisaSessions} (h : Held state w) :
    Held (closeSessions state w).1 (closeSessions state w).2 ∧ (closeSessions state w).2.Clean := by
  rw [closeSessions]
  by_cases hrm : state.defaultRm = 0
  · obtain ⟨hinstrument, hopened⟩ := h.idle hrm
    simp only [hrm, hinstrument, ne_eq, not_true_eq_false, if_false]
    exact ⟨⟨h.stray, h.next, fun _ => ⟨rfl, hopened⟩, fun hbusy => absurd rfl hbusy⟩, hopened, h.stray, h.next⟩
  · obtain ⟨hopened, -, hinstrument⟩ := h.busy hrm
    have hfirst := VisaSessions.viClose_head hopened
    have hsecond : ({ w with opened := [state.defaultRm] } : VisaSessions).viClose state.defaultRm =
        { w with opened := [] } := VisaSessions.viClose_head rfl
    simp only [ne_eq, hrm, hinstrument, not_false_eq_true, if_true, hfirst, hsecond]
    exact ⟨⟨h.stray, h.next, fun _ => ⟨rfl, rfl⟩, fun hbusy => absurd rfl hbusy⟩, rfl, h.stray, h.next⟩

theorem releases : code.Releases Held VisaSessions.Clean MayOpen MayUse where
  start w hclean := ⟨hclean.stray, hclean.next, fun _ => ⟨rfl, hclean.opened⟩, fun hbusy => absurd rfl hbusy⟩
  opening o state w hmay h := held_openSessions hmay h
  exchange e state w hmay h := by
    obtain ⟨hstate, hworld⟩ := exchange_eq hmay h
    show Held (VisaBuiltin.exchange e state w).1 (VisaBuiltin.exchange e state w).2.1
    rw [hstate, hworld]
    exact h
  shutdown state w h := closeSessions_held h

/-- An instrument that could not be opened: the resource manager is closed and stays in its variable. -/
theorem not_clean_closeSessions {o : VisaOpening} {state : Globals} {w : VisaSessions}
    (haddress : (address? o.config.connectionJson.text).isSome = true) (hrm : state.defaultRm = 0) (h : Held state w)
    (hhalf : o.HalfOpens) :
    ¬ (closeSessions (openSessions o state w).1 (openSessions o state w).2.1).2.Clean := by
  obtain ⟨resourceAddress, hsome⟩ := Option.isSome_iff_exists.mp haddress
  obtain ⟨hinstrument, hopened⟩ := h.idle hrm
  have hclosed : w.viOpen.1.viClose w.viOpen.2 = { w with next := w.next + 1, opened := [] } :=
    VisaSessions.viClose_head (by rw [VisaSessions.viOpen, hopened])
  have hrmVariable : w.viOpen.2 ≠ 0 := h.next.ne'
  have hstray : ({ w with next := w.next + 1, opened := [] } : VisaSessions).viClose w.viOpen.2 =
      { w with next := w.next + 1, opened := [], stray := true } := VisaSessions.viClose_of_not_mem List.not_mem_nil
  intro hclean
  simp only [openSessions, hsome, if_neg (Int32.not_lt.mpr hhalf.1), if_pos hhalf.2, hinstrument, afterFailure_zero,
    closeSessions, hclosed, ne_eq, not_true_eq_false, if_false, hrmVariable, not_false_eq_true, if_true, hstray] at hclean
  exact Bool.false_ne_true hclean.stray.symm

end VisaBuiltin

section

variable {Library : Type} [DecidableEq Library] {exports : Library → PluginExports} {i : Nat} {l : PluginLoader Library}
  {lib : Library} {o : VisaOpening}

open LoaderProcess

/-- What the plugin leaves behind when a loader initialises it and is destroyed. -/
theorem VisaBuiltin.world_destroy {p q r : LoaderProcess Library Globals VisaSessions} (h : LoaderInv p)
    (hl : p.loader? i = some l) (hlib : l.handle = some lib) (hopens : p.step code exports (.initializePlugin i o) = some q)
    (hdestroyed : q.step code exports (.destroy i) = some r) :
    r.world lib = (closeSessions (openSessions o (p.statics lib) (p.world lib)).1
      (openSessions o (p.statics lib) (p.world lib)).2.1).2 := by
  have hopen := h.isOpen hl hlib
  have hwhole := h.whole_of_loader? hl
  have hq : q = (p.enter lib (openSessions o)).1 := by
    simp only [LoaderProcess.step, hl, Option.map_some, PluginLoader.initializePlugin, hwhole.initializePlugin, hlib,
      Option.some.injEq] at hopens
    exact hopens.symm
  have hlq : q.loader? i = some l := by
    rw [hq, loader?_eq_some_iff, loaders_enter]
    exact loader?_eq_some_iff.mp hl
  have hqopen : 0 < q.opens lib := (h.step hopens).isOpen hlq hlib
  simp only [LoaderProcess.step, hlq, Option.map_some, Option.some.injEq] at hdestroyed
  rw [← hdestroyed, PluginLoader.destroy, hwhole.shutdown, hlib, if_pos ⟨rfl, rfl⟩, PluginLoader.unload, hlib,
    PluginLoader.shutdown, hwhole.shutdown, hlib]
  dsimp only
  rw [dlclose_of_open (by rw [enter_of_open hqopen]; exact hqopen), enter_of_open hqopen]
  show Function.update q.world lib _ lib = _
  rw [Function.update_self, hq, enter_of_open hopen]
  show (closeSessions (Function.update p.statics lib _ lib) (Function.update p.world lib _ lib)).2 = _
  rw [Function.update_self, Function.update_self]

open VisaBuiltin in
/-- A loader that initialises the built-in VISA plugin, which has no sessions, and is then destroyed leaves all sessions closed, each once, if and only if it was not the instrument alone that could not be opened. -/
theorem builtin_sessions_closed_iff {p q r : LoaderProcess Library Globals VisaSessions}
    (hreach : ReachableWhile (system code exports fun _ => {}) (Steady MayOpen MayUse) p) (hl : p.loader? i = some l)
    (hlib : l.handle = some lib) (hidle : (p.statics lib).defaultRm = 0)
    (haddress : (address? o.config.connectionJson.text).isSome = true)
    (hopens : p.step code exports (.initializePlugin i o) = some q)
    (hdestroyed : q.step code exports (.destroy i) = some r) : (r.world lib).Clean ↔ ¬ o.HalfOpens := by
  have hinv : LoaderInv p := hreach.reachable.invariant .init fun _ _ _ h hnext => h.step hnext
  have hheld : Held (p.statics lib) (p.world lib) :=
    ((released_of_reachable releases (fun _ => VisaSessions.clean_new) hreach).1 lib).2 (hinv.isOpen hl hlib)
  rw [VisaBuiltin.world_destroy hinv hl hlib hopens hdestroyed]
  constructor
  · exact fun hclean hhalf => not_clean_closeSessions haddress hidle hheld hhalf hclean
  · exact fun hboth => (closeSessions_held (held_openSessions (fun _ => ⟨hidle, hboth⟩) hheld)).2

end

open LoaderProcess VisaBuiltin in
/-- The instrument does not answer when it is opened, and the resource manager is closed twice. -/
theorem builtin_sessions_closed_iff_noAnswer :
    ∃ p q r : LoaderProcess Unit Globals VisaSessions,
      p.step code (fun _ => allExports) (.initializePlugin 0 (.gpib (-1))) = some q ∧
        q.step code (fun _ => allExports) (.destroy 0) = some r ∧ ¬ (r.world ()).Clean := by
  have hconstructed := @ReachableWhile.step _ _ (system code (fun _ => allExports) fun _ => {}) (Steady MayOpen MayUse) _ _
    (LoaderLabel.construct (bytes "visa_builtin.so") (.ok ())) .init trivial rfl
  have haddress : (address? (VisaOpening.gpib (-1)).config.connectionJson.text).isSome = true := by decide +kernel
  obtain ⟨p, q, r, l, hreach, hopens, hdestroyed, hl, hlib, hidle⟩ : ∃ p q r l,
      ReachableWhile (system code (fun _ => allExports) fun _ => {}) (Steady MayOpen MayUse) p ∧
        p.step code (fun _ => allExports) (.initializePlugin 0 (.gpib (-1))) = some q ∧
        q.step code (fun _ => allExports) (.destroy 0) = some r ∧ p.loader? 0 = some l ∧ l.handle = some () ∧
        (p.statics ()).defaultRm = 0 := ⟨_, _, _, _, hconstructed, rfl, rfl, rfl, rfl, rfl⟩
  exact ⟨p, q, r, hopens, hdestroyed, fun hclean =>
    (builtin_sessions_closed_iff hreach hl hlib hidle haddress hopens hdestroyed).mp hclean ⟨by decide, by decide⟩⟩

end InstrumentServer
