import InstrumentServer.Lib.Json.Text
import InstrumentServer.Server.Measurement
import InstrumentServer.Server.ResultBookkeeping

/-!
# The results of overlapping jobs

Any number of measure jobs share the proxies, and their tokens have the same numbers. A job finds its responses by its own futures: the promise of a command is the only one with the id under which the command is sent, and the context keeps for every future the entry of the result it belongs to. While the instruments stay the same, every command finds its worker, so the futures and the entries of a token stay side by side; the result of a finished job then holds in every entry the response to the command that was dispatched for it.
-/

namespace InstrumentServer

open Ipc Transition InstrumentWorkerProxy

/-! ### The value of a promise -/

/-- The call was answered with this response: by the worker, to the message that carries the command, or by the proxy because the command could not be sent. -/
def WorkerLink.RespondsTo (N : JsonLibrary) (l : WorkerLink) (call : ExecuteCall) (resp : CommandResponse) : Prop :=
  (∃ request response, call.Carries N request ∧ (request, response) ∈ l.replies ∧ Answers N request response ∧
    deserializeResponse N response.payload = .ok resp) ∨
  resp = l.proxy.sendFailure call.cmd

/-- `stop` gave no promise its value. -/
def WorkerLink.Unstopped (l : WorkerLink) : Prop := ∀ f ∈ l.proxy.fulfilments, f.source ≠ .stopped

namespace LinkInv

open WorkerLink

variable {N : JsonLibrary} {l l' : WorkerLink}

/-- A promise gets the response to the command of its own call. -/
theorem respondsTo (h : LinkInv N l) (hunstopped : l.Unstopped) {p : PromiseId} {resp : CommandResponse} {call : ExecuteCall}
    (hvalue : l.proxy.values p = some resp) (hcall : l.proxy.calls p = some call) : l.RespondsTo N call resp := by
  obtain ⟨f, hf, rfl, rfl⟩ := (h.promises.values p resp).mp hvalue
  cases hsource : f.source with
  | response msg =>
      obtain ⟨-, hid, hdecode⟩ := h.promises.own f hf msg hsource
      obtain ⟨request, hreply⟩ := h.fulfilled f hf msg hsource
      obtain ⟨hrequest, hsame, hanswers⟩ := h.replied _ hreply
      obtain ⟨q, other, hother, -, hcarries⟩ := h.sent request hrequest
      -- the request and the promise have the same id, so they belong to one call
      have hq : l.proxy.messageId q = some msg.id := by
        rw [messageId, hother, hsame]
        exact hcarries.1
      obtain rfl := h.promises.distinct q f.promise msg.id hq hid
      obtain rfl := Option.some.inj (hother.symm.trans hcall)
      exact Or.inl ⟨request, msg, hcarries, hreply, hanswers, hdecode⟩
  | sendFailure =>
      obtain ⟨other, hother, -, hresp⟩ := h.failed f hf hsource
      obtain rfl := Option.some.inj (hother.symm.trans hcall)
      exact Or.inr hresp
  | stopped => exact absurd hsource (hunstopped f hf)

open ServerState (LinkMove linkInv_of_move grows_of_move)

theorem unstopped_of_move (h : LinkInv N l) (hunstopped : l.Unstopped) (hmove : LinkMove N l l') : l'.Unstopped := by
  intro f hf
  rcases (grows_of_move h hmove).unstopped f hf with hold | hnew
  · exact hunstopped f hold
  · exact hnew

/-- The value of a promise stays. -/
theorem values_of_move (h : LinkInv N l) (hmove : LinkMove N l l') {p : PromiseId} {resp : CommandResponse}
    (hvalue : l.proxy.values p = some resp) : l'.proxy.values p = some resp := by
  obtain ⟨f, hf, hpromise, hresp⟩ := (h.promises.values p resp).mp hvalue
  exact ((linkInv_of_move h hmove).promises.values p resp).mpr ⟨f, (grows_of_move h hmove).fulfilments hf, hpromise, hresp⟩

theorem raised_of_move (h : LinkInv N l) (hmove : LinkMove N l l') {p : PromiseId}
    (hpoint : l.proxy.point p = some .raised) : l'.proxy.point p = some .raised := by
  obtain ⟨call, hcall, hraised⟩ := Option.map_eq_some_iff.mp hpoint
  obtain ⟨call', hcall', hevolves⟩ := (grows_of_move h hmove).calls p call hcall
  rw [point, hcall']
  exact congrArg some (hevolves.raised hraised)

end LinkInv

/-! ### Every command has its own promise -/

/-- The promise of a command belongs to a call of `execute` with this command. -/
def Known (links : ByteString → WorkerLink) (run : MeasurementRun) : Prop :=
  ∀ d ∈ run.dispatched, ∀ p, d.promise = some p →
    ∃ call, (links d.inst).proxy.calls p = some call ∧ ∃ id, call.cmd = { d.entry.cmd with id }

namespace ServerState

variable {N : JsonLibrary} {expects : ByteString → ByteString → Bool} {enqueueMode : Bool} {s t : ServerState} {c : Nat}
  {run run' : MeasurementRun} {label : ServerLabel}

/-- A step of a run dispatches at most one command, and a worker that is found makes a new promise for it. -/
theorem RunMove.dispatched (hmove : RunMove expects enqueueMode s t c run label run') :
    run'.dispatched = run.dispatched ∨
      ∃ found d, label = .act c found ∧ run'.dispatched = run.dispatched ++ [d] ∧
        ∀ p, d.promise = some p → p = (s.links d.inst).proxy.promises ∧
          t.links d.inst = (s.links d.inst).execute d.entry.cmd := by
  cases hmove with
  | beginEnqueue hmode hscript op found => exact Or.inl (MeasurementRun.dispatched_beginEnqueue found op)
  | beginSync hmode hscript op found => exact Or.inl (MeasurementRun.dispatched_beginSync op)
  | dispatch hcall htodo hlink =>
      refine Or.inr ⟨_, _, rfl, rfl, ?_⟩
      rintro p ⟨⟩
      exact ⟨rfl, hlink⟩
  | noWorker hcall htodo =>
      refine Or.inr ⟨_, _, rfl, rfl, ?_⟩
      rintro p ⟨⟩
  | sent hcall hpoint => exact Or.inl (MeasurementRun.dispatched_sent _)
  | raised hcall hpoint => exact Or.inl MeasurementRun.dispatched_raised
  | rest => exact Or.inl rfl
  | monitor => exact Or.inl rfl
  | done => exact Or.inl rfl
  | fail => exact Or.inl rfl
  | finish => exact Or.inl rfl
  | await => exact Or.inl rfl
  | release => exact Or.inl rfl
  | clear => exact Or.inl rfl
  | send => exact Or.inl rfl
  | skip => exact Or.inl rfl
  | recordCall => exact Or.inl rfl
  | recordBlock => exact Or.inl rfl
  | endBlock => exact Or.inl rfl

theorem known_move (h : Known s.links run) (hgrows : ∀ inst, (s.links inst).Grows (t.links inst))
    (hmove : RunMove expects enqueueMode s t c run label run') : Known t.links run' := by
  have hold : ∀ d ∈ run.dispatched, ∀ p, d.promise = some p →
      ∃ call, (t.links d.inst).proxy.calls p = some call ∧ ∃ id, call.cmd = { d.entry.cmd with id } := by
    intro d hd p hp
    obtain ⟨call, hcall, id, hcmd⟩ := h d hd p hp
    obtain ⟨call', hcall', hevolves⟩ := (hgrows d.inst).calls p call hcall
    obtain ⟨id', hcmd'⟩ := hevolves.cmd
    exact ⟨call', hcall', id', by rw [hcmd', hcmd]⟩
  rcases hmove.dispatched with hsame | ⟨found, d, -, hnew, hpromise⟩
  · intro d hd
    exact hold d (hsame ▸ hd)
  · intro e he p hp
    rw [hnew] at he
    rcases List.mem_append.mp he with he | he
    · exact hold e he p hp
    · obtain rfl := List.mem_singleton.mp he
      obtain ⟨rfl, hlink⟩ := hpromise p hp
      refine ⟨⟨e.entry.cmd, none, .created⟩, ?_, e.entry.cmd.id, rfl⟩
      rw [hlink]
      exact Function.update_self ..

/-- No two commands, of one run or of two, have the same promise. -/
def OwnPromises (s : ServerState) : Prop :=
  ∀ (c c' k k' : Nat) (d d' : Dispatched) (p : PromiseId), (s.runs c).dispatched[k]? = some d →
    (s.runs c').dispatched[k']? = some d' → d.inst = d'.inst → d.promise = some p → d'.promise = some p → c = c' ∧ k = k'

theorem ownPromises_move {enqueueMode : Nat → Bool} (h : OwnPromises s) (hlinks : ∀ inst, LinkInv N (s.links inst))
    (hknown : ∀ c, Known s.links (s.runs c))
    (hmoves : ∀ c, RunMove expects (enqueueMode c) s t c (s.runs c) label (t.runs c)) : OwnPromises t := by
  -- a command is an old one, or the one of this step, whose promise is new
  have hcases : ∀ (c k : Nat) (d : Dispatched) (p : PromiseId), (t.runs c).dispatched[k]? = some d → d.promise = some p →
      ((s.runs c).dispatched[k]? = some d ∧ p < (s.links d.inst).proxy.promises) ∨
        ((∃ found, label = .act c found) ∧ k = (s.runs c).dispatched.length ∧ p = (s.links d.inst).proxy.promises) := by
    intro c k d p hd hp
    have hold : (s.runs c).dispatched[k]? = some d → p < (s.links d.inst).proxy.promises := by
      intro hd
      by_contra hge
      obtain ⟨call, hcall, -⟩ := hknown c d (List.mem_of_getElem? hd) p hp
      rw [(hlinks d.inst).promises.fresh p (not_lt.mp hge)] at hcall
      contradiction
    rcases (hmoves c).dispatched with hsame | ⟨found, new, hlabel, hnew, hpromise⟩
    · rw [hsame] at hd
      exact Or.inl ⟨hd, hold hd⟩
    · rw [hnew, RuntimeContext.getElem?_snoc] at hd
      rcases hd with hd | ⟨hk, rfl⟩
      · exact Or.inl ⟨hd, hold hd⟩
      · exact Or.inr ⟨⟨found, hlabel⟩, hk, (hpromise p hp).1⟩
  intro c c' k k' d d' p hd hd' hinst hp hp'
  rcases hcases c k d p hd hp with ⟨hold, hlt⟩ | ⟨⟨found, hlabel⟩, hk, hfresh⟩ <;>
    rcases hcases c' k' d' p hd' hp' with ⟨hold', hlt'⟩ | ⟨⟨found', hlabel'⟩, hk', hfresh'⟩
  · exact h c c' k k' d d' p hold hold' hinst hp hp'
  · rw [hfresh', hinst] at hlt
    exact absurd hlt (lt_irrefl _)
  · rw [hfresh, hinst] at hlt'
    exact absurd hlt' (lt_irrefl _)
  · obtain ⟨rfl, -⟩ := ServerLabel.act.inj (hlabel.symm.trans hlabel')
    exact ⟨rfl, hk.trans hk'.symm⟩

end ServerState

/-! ### The results of one job -/

namespace MeasurementRun

/-- The futures that are still to be waited for, with their places. -/
def awaits (todo : List RunAction) : List (SyncToken × Nat × FutureRef) :=
  todo.filterMap fun
    | .await token i future => some (token, i, future)
    | _ => none

/-- The entry is to be filled with the value of the future. -/
def Awaits (run : MeasurementRun) (k : Nat) (future : FutureRef) : Prop :=
  match run.phase with
  | .script => run.ctx.Fills k future
  | _ => ∃ waiting ∈ awaits run.todo, run.ctx.place waiting = some k ∧ waiting.2.2 = future

/-- The commands that have an entry; the one in `execute` gets its entry at the end. -/
def entered (run : MeasurementRun) : List Dispatched :=
  match run.inCall with
  | none => run.dispatched
  | some _ => run.dispatched.dropLast

/-- What a job still has to do: commands for instruments that are there while the script runs, then the actions of the monitor. -/
def InOrder (registry : Registry) (run : MeasurementRun) : RunAction → Prop
  | .dispatch token entry held =>
      run.phase = .script ∧ token ∈ run.ctx.tokenOrder ∧
        (run.ctx.tokenFutures token).length = (run.ctx.tokenResultIndices token).length ∧
        (held = true ∨ entry.cmd.instrumentName ∈ registry.names)
  | .await _ _ _ | .release _ _ | .clear _ => run.phase = .monitor
  | .send _ | .awaitCall _ _ | .awaitBlock => False

end MeasurementRun

open MeasurementRun RuntimeContext

/-- The entry of a command that was not sent, or of one whose response is there. -/
def Settled (links : ByteString → WorkerLink) (d : Dispatched) (cr : CallResult) : Prop :=
  ∃ p, d.promise = some p ∧
    (((links d.inst).proxy.point p = some .raised ∧ cr = d.entry.result) ∨
      ∃ resp, (links d.inst).proxy.values p = some resp ∧ cr = d.entry.result.populate resp)

/-- An entry is settled, or it is a placeholder that waits for the future of its own command. -/
def EntryInv (links : ByteString → WorkerLink) (run : MeasurementRun) (k : Nat) (d : Dispatched) (cr : CallResult) : Prop :=
  (Settled links d cr ∧ ∀ future, ¬ run.Awaits k future) ∨
    (cr = d.entry.result ∧ ∃ p, d.promise = some p ∧ ∀ future, run.Awaits k future ↔ future = (d.inst, p))

structure JobInv (registry : Registry) (links : ByteString → WorkerLink) (run : MeasurementRun) : Prop where
  books : run.ctx.Books
  actions : ∀ action ∈ run.todo, run.InOrder registry action
  waits : run.phase ≠ .script → (awaits run.todo).Sublist run.ctx.pendingFutures
  current : ∀ future, run.inCall = some future → ∃ token entry held todo, run.todo = .dispatch token entry held :: todo ∧
    entry.cmd.instrumentName = future.1 ∧ run.dispatched = run.entered ++ [⟨token, entry, some future.2⟩]
  size : run.entered.length = run.ctx.collectedResults.length
  entries : ∀ k d cr, run.entered[k]? = some d → run.ctx.collectedResults[k]? = some cr → EntryInv links run k d cr

namespace JobInv

variable {N : JsonLibrary} {registry : Registry} {links links' : ByteString → WorkerLink} {run run' : MeasurementRun}

theorem init (registry : Registry) (links : ByteString → WorkerLink) : JobInv registry links {} :=
  ⟨Books.empty, by simp, by simp, by simp, rfl, by simp [entered]⟩

theorem awaits_script (hphase : run.phase = .script) {k : Nat} {future : FutureRef} :
    run.Awaits k future ↔ run.ctx.Fills k future := by
  rw [Awaits, hphase]

theorem awaits_todo (hphase : run.phase ≠ .script) {k : Nat} {future : FutureRef} :
    run.Awaits k future ↔ ∃ waiting ∈ awaits run.todo, run.ctx.place waiting = some k ∧ waiting.2.2 = future := by
  rw [Awaits]
  split
  · contradiction
  · rfl

/-- The links move and the run rests. -/
theorem linkMove (h : JobInv registry links run) (hlinks : ∀ inst, LinkInv N (links inst))
    (hmove : ∀ inst, ServerState.LinkMove N (links inst) (links' inst)) : JobInv registry links' run := by
  refine ⟨h.books, h.actions, h.waits, h.current, h.size, fun k d cr hd hcr => ?_⟩
  rcases h.entries k d cr hd hcr with ⟨⟨p, hp, hsettled⟩, hnone⟩ | hwaiting
  · refine Or.inl ⟨⟨p, hp, ?_⟩, hnone⟩
    rcases hsettled with ⟨hraised, hcr⟩ | ⟨resp, hvalue, hcr⟩
    · exact Or.inl ⟨(hlinks d.inst).raised_of_move (hmove d.inst) hraised, hcr⟩
    · exact Or.inr ⟨resp, (hlinks d.inst).values_of_move (hmove d.inst) hvalue, hcr⟩
  · exact Or.inr hwaiting

/-- The run moves on and leaves its results alone. -/
theorem keep (h : JobInv registry links run) (hbooks : run'.ctx.Books)
    (hactions : ∀ action ∈ run'.todo, run'.InOrder registry action)
    (hwaits : run'.phase ≠ .script → (awaits run'.todo).Sublist run'.ctx.pendingFutures) (hcall : run.inCall = none)
    (hcall' : run'.inCall = none) (hdispatched : run'.dispatched = run.dispatched)
    (hresults : run'.ctx.collectedResults = run.ctx.collectedResults)
    (hawaits : ∀ k future, run'.Awaits k future ↔ run.Awaits k future) : JobInv registry links run' := by
  have hentered : run'.entered = run.entered := by
    rw [entered, entered, hcall, hcall']
    exact hdispatched
  refine ⟨hbooks, hactions, hwaits, ?_, ?_, fun k d cr hd hcr => ?_⟩
  · simp [hcall']
  · rw [hentered, hresults, h.size]
  · rw [hentered] at hd
    rw [hresults] at hcr
    simpa only [EntryInv, hawaits] using h.entries k d cr hd hcr

theorem atScript (hscript : run.AtScript) : run.phase = .script ∧ run.todo = [] ∧ run.inCall = none := by
  obtain ⟨hphase, htodo, hcall⟩ := hscript
  exact ⟨hphase, List.isEmpty_iff.mp htodo, hcall⟩

theorem openToken (h : JobInv registry links run) (hscript : run.AtScript) {allInstruments : List ByteString}
    {todo : List RunAction}
    (htodo : ∀ action ∈ todo, ∃ entry held, action = .dispatch run.ctx.nextSyncToken entry held ∧
      (held = true ∨ entry.cmd.instrumentName ∈ registry.names)) :
    JobInv registry links (run.openToken allInstruments todo) := by
  obtain ⟨hphase, -, hcall⟩ := atScript hscript
  have hphase' : (run.openToken allInstruments todo).phase = .script := hphase
  refine h.keep (h.books.drawToken allInstruments) (fun action haction => ?_) (fun hne => absurd hphase' hne) hcall hcall rfl rfl
    fun k future => ?_
  · obtain ⟨entry, held, rfl, hfound⟩ := htodo action haction
    refine ⟨hphase, mem_tokenOrder_drawToken run.ctx allInstruments, ?_, hfound⟩
    have hfresh := h.books.unknown run.ctx.nextSyncToken fun hmem => absurd (h.books.below _ hmem) (lt_irrefl _)
    show (run.ctx.tokenFutures run.ctx.nextSyncToken).length = (run.ctx.tokenResultIndices run.ctx.nextSyncToken).length
    rw [hfresh.1, hfresh.2]
    rfl
  · rw [awaits_script hphase', awaits_script hphase]
    rfl

theorem beginEnqueue (h : JobInv registry links run) (hscript : run.AtScript) (expects : ByteString → ByteString → Bool)
    (found : Bool) {op : EnqueueOp} (hop : op.allInstruments = registry.names) :
    JobInv registry links (run.beginEnqueue expects found op) := by
  rcases run.beginEnqueue_cases found op with heq | ⟨todo, heq, htodo⟩
  · rwa [heq]
  · rw [heq]
    exact h.openToken hscript (hop ▸ htodo)

theorem awaits_tokenActions (ctx : RuntimeContext FutureRef) :
    awaits (ctx.tokenOrder.flatMap (tokenActions ctx)) = ctx.pendingFutures := by
  rw [awaits, List.filterMap_flatMap, pendingFutures]
  congr 1
  funext token
  simp [tokenActions, List.filterMap_append, List.filterMap_map]

/-- The script ends; what fills an entry is what the monitor waits for. -/
theorem monitor (h : JobInv registry links run) (hscript : run.AtScript) :
    JobInv registry links
      { run with phase := .monitor, todo := run.ctx.tokenOrder.flatMap (tokenActions run.ctx) } := by
  obtain ⟨hphase, -, hcall⟩ := atScript hscript
  refine h.keep h.books (fun action haction => ?_) (fun _ => ?_) hcall hcall rfl rfl fun k future => ?_
  · obtain ⟨token, -, hmem⟩ := List.mem_flatMap.mp haction
    rcases List.mem_append.mp hmem with hmem | hmem
    · rcases List.mem_append.mp hmem with hmem | hmem
      · obtain ⟨_, -, rfl⟩ := List.mem_map.mp hmem
        rfl
      · obtain ⟨_, -, rfl⟩ := List.mem_map.mp hmem
        rfl
    · rw [List.mem_singleton.mp hmem]
      rfl
  · rw [awaits_tokenActions]
  · rw [awaits_todo (by simp), awaits_script hphase, h.books.fills_iff, awaits_tokenActions]

/-- The monitor ends. -/
theorem finish (h : JobInv registry links run) (hcall : run.inCall = none) (htodo : run.todo = [])
    (hphase : run.phase = .monitor) : JobInv registry links { run with phase := .done, ctx := run.ctx.clearTokens } := by
  refine h.keep (Books.clearTokens run.ctx) (by simp [htodo]) (fun _ => ?_) hcall hcall rfl rfl fun k future => ?_
  · rw [htodo]
    exact List.nil_sublist _
  · rw [awaits_todo (by simp), awaits_todo (by simp [hphase]), htodo]
    simp [awaits]

/-- The thread enters `execute`. -/
theorem dispatch (h : JobInv registry links run) {token : SyncToken} {entry : BlockEntry} {held : Bool}
    {todo : List RunAction} (hcall : run.inCall = none) (htodo : run.todo = .dispatch token entry held :: todo) (p : PromiseId) :
    JobInv registry links
      { run with
        inCall := some (entry.cmd.instrumentName, p)
        dispatched := run.dispatched ++ [⟨token, entry, some p⟩] } := by
  have hentered : run.entered = run.dispatched := by rw [entered, hcall]
  have hentered' : (run.dispatched ++ [(⟨token, entry, some p⟩ : Dispatched)]).dropLast = run.entered := by
    rw [List.dropLast_concat, hentered]
  refine ⟨h.books, h.actions, h.waits, ?_, ?_, fun k d cr hd hcr => ?_⟩
  · intro future hfuture
    obtain rfl := Option.some.inj hfuture
    refine ⟨token, entry, held, todo, htodo, rfl, ?_⟩
    exact congrArg (· ++ [_]) (hentered.symm.trans hentered'.symm)
  · exact (congrArg List.length hentered').trans h.size
  · exact h.entries k d cr (hentered' ▸ hd) hcr

theorem inOrder_monitor (hphase : run.phase = .monitor) (hphase' : run'.phase = .monitor) {action : RunAction}
    (hin : run.InOrder registry action) : run'.InOrder registry action := by
  cases action with
  | dispatch token entry held => exact absurd (hphase.symm.trans hin.1) (by simp)
  | await token i future => exact hphase'
  | release token inst => exact hphase'
  | clear token => exact hphase'
  | send cmd => exact hin
  | awaitCall name params => exact hin
  | awaitBlock => exact hin

/-- The monitor moves on without filling an entry. -/
theorem pass (h : JobInv registry links run) {action : RunAction} {todo : List RunAction} (hcall : run.inCall = none)
    (htodo : run.todo = action :: todo) (hphase : run.phase = .monitor)
    (hpass : awaits (action :: todo) = awaits todo) (hcall' : run'.inCall = none) (htodo' : run'.todo = todo)
    (hphase' : run'.phase = run.phase) (hctx : run'.ctx = run.ctx) (hdispatched : run'.dispatched = run.dispatched) :
    JobInv registry links run' := by
  have hawaits : awaits run'.todo = awaits run.todo := by rw [htodo', htodo, hpass]
  have hne : run.phase ≠ .script := by simp [hphase]
  have hne' : run'.phase ≠ .script := hphase'.symm ▸ hne
  refine h.keep (hctx ▸ h.books) (fun other hother => ?_) (fun _ => ?_) hcall hcall' hdispatched (by rw [hctx])
    fun k future => ?_
  · exact inOrder_monitor hphase (hphase'.trans hphase)
      (h.actions other (by rw [htodo, ← htodo']; exact List.mem_cons_of_mem _ hother))
  · rw [hawaits, hctx]
    exact h.waits hne
  · rw [awaits_todo hne', awaits_todo hne, hawaits, hctx]

/-- A future is ready: the entry at its place gets the response. -/
theorem await (h : JobInv registry links run) {token : SyncToken} {i : Nat} {future : FutureRef} {todo : List RunAction}
    {resp : CommandResponse} (hcall : run.inCall = none) (htodo : run.todo = .await token i future :: todo)
    (hvalue : (links future.1).proxy.values future.2 = some resp) :
    JobInv registry links { run with todo, ctx := run.ctx.fill token i (some resp) } := by
  have hphase : run.phase = .monitor := h.actions (.await token i future) (by simp [htodo])
  have hne : run.phase ≠ .script := by simp [hphase]
  have hhead : awaits run.todo = (token, i, future) :: awaits todo := by rw [htodo]; rfl
  have hsublist : ((token, i, future) :: awaits todo).Sublist run.ctx.pendingFutures := hhead ▸ h.waits hne
  obtain ⟨k, hk⟩ := Option.isSome_iff_exists.mp (h.books.placed (token, i, future) (hsublist.subset (by simp)))
  have hdistinct := (List.pairwise_cons.mp (h.books.distinct.sublist hsublist)).1
  have hfill : run.ctx.fill token i (some resp) = run.ctx.modifyResult k fun cr => cr.populate resp :=
    fill_index hk (fun _ => some resp) future
  rw [hfill]
  have hne' : MeasurementRun.phase { run with todo, ctx := run.ctx.modifyResult k fun cr => cr.populate resp } ≠ .script :=
    hne
  have hawaits : ∀ j other, MeasurementRun.Awaits
      { run with todo, ctx := run.ctx.modifyResult k fun cr => cr.populate resp } j other ↔
        j ≠ k ∧ run.Awaits j other := by
    intro j other
    rw [awaits_todo hne', awaits_todo hne, hhead]
    constructor
    · rintro ⟨waiting, hmem, hplace, hfuture⟩
      refine ⟨?_, waiting, List.mem_cons_of_mem _ hmem, hplace, hfuture⟩
      rintro rfl
      exact hdistinct waiting hmem (hk.trans hplace.symm)
    · rintro ⟨hjk, waiting, hmem, hplace, hfuture⟩
      rcases List.mem_cons.mp hmem with rfl | hmem
      · exact absurd (Option.some.inj (hplace.symm.trans hk)) hjk
      · exact ⟨waiting, hmem, hplace, hfuture⟩
  refine ⟨h.books.modifyResult k _, fun action haction => ?_, fun _ => ?_, ?_, ?_, fun j d cr hd hcr => ?_⟩
  · exact inOrder_monitor hphase hphase (h.actions action (by rw [htodo]; exact List.mem_cons_of_mem _ haction))
  · exact (List.sublist_cons_self _ _).trans hsublist
  · simp [hcall]
  · show run.entered.length = (run.ctx.collectedResults.modify k _).length
    rw [List.length_modify, h.size]
  · replace hcr : (run.ctx.collectedResults.modify k fun cr => cr.populate resp)[j]? = some cr := hcr
    by_cases hjk : j = k
    · subst hjk
      rw [List.getElem?_modify_eq] at hcr
      obtain ⟨old, hold, rfl⟩ := Option.map_eq_some_iff.mp hcr
      refine Or.inl ⟨?_, fun other hother => ((hawaits j other).mp hother).1 rfl⟩
      have hthis : run.Awaits j future := by
        rw [awaits_todo hne, hhead]
        exact ⟨_, List.mem_cons_self, hk, rfl⟩
      rcases h.entries j d old hd hold with ⟨-, hnone⟩ | ⟨rfl, p, hp, hown⟩
      · exact absurd hthis (hnone future)
      · obtain rfl := (hown future).mp hthis
        exact ⟨p, hp, Or.inr ⟨resp, hvalue, rfl⟩⟩
    · rw [List.getElem?_modify_ne _ _ (Ne.symm hjk)] at hcr
      simpa only [EntryInv, hawaits, ne_eq, hjk, not_false_eq_true, true_and] using h.entries j d cr hd hcr

/-- The thread leaves `execute`, and the command gets its entry. -/
theorem record (h : JobInv registry links run) {token : SyncToken} {entry : BlockEntry} {held : Bool}
    {todo : List RunAction} {future : FutureRef} {outcome : SendOutcome FutureRef} (hcall : run.inCall = some future)
    (htodo : run.todo = .dispatch token entry held :: todo) (hcall' : run'.inCall = none)
    (htodo' : ∀ action ∈ run'.todo, run'.InOrder registry action) (hphase' : run'.phase = run.phase)
    (hctx : run'.ctx = run.ctx.dispatch token entry.result outcome) (hdispatched : run'.dispatched = run.dispatched)
    (hawaits : ∀ k < run.ctx.collectedResults.length, ∀ f, run'.Awaits k f ↔ run.ctx.Fills k f)
    (hnew : EntryInv links run' run.ctx.collectedResults.length ⟨token, entry, some future.2⟩ entry.result) :
    JobInv registry links run' := by
  obtain ⟨hphase, htoken, -, -⟩ := h.actions (.dispatch token entry held) (by simp [htodo])
  obtain ⟨token', entry', held', todo', heq, -, hlast⟩ := h.current future hcall
  obtain ⟨⟨rfl, rfl, rfl⟩, rfl⟩ := (by simpa using htodo.symm.trans heq :
    (token = token' ∧ entry = entry' ∧ held = held') ∧ todo = todo')
  have hentered : run'.entered = run.entered ++ [⟨token, entry, some future.2⟩] := by
    rw [entered, hcall', hdispatched]
    exact hlast
  have hresults : run'.ctx.collectedResults = run.ctx.collectedResults ++ [entry.result] := by
    rw [hctx, collectedResults_dispatch]
  refine ⟨?_, htodo', ?_, by simp [hcall'], ?_, fun k d cr hd hcr => ?_⟩
  · rw [hctx]
    exact h.books.dispatch htoken entry.result outcome
  · rw [hphase', hphase]
    simp
  · rw [hentered, hresults, List.length_append, List.length_append, h.size]
    rfl
  · rw [hentered, getElem?_snoc] at hd
    rw [hresults, getElem?_snoc] at hcr
    rcases hd with hd | ⟨hk, rfl⟩ <;> rcases hcr with hcr | ⟨hk', rfl⟩
    · have hlt := (List.getElem?_eq_some_iff.mp hcr).1
      have hold := h.entries k d cr hd hcr
      simpa only [EntryInv, hawaits k hlt, awaits_script hphase] using hold
    · have hlt := (List.getElem?_eq_some_iff.mp hd).1
      rw [h.size] at hlt
      omega
    · have hlt := (List.getElem?_eq_some_iff.mp hcr).1
      rw [h.size] at hk
      omega
    · rw [hk']
      exact hnew

theorem sent (h : JobInv registry links run) {future : FutureRef} (hcall : run.inCall = some future) :
    JobInv registry links (run.sent future) := by
  obtain ⟨token, entry, held, todo, htodo, hinst, -⟩ := h.current future hcall
  obtain ⟨hphase, htoken, hlengths, -⟩ := h.actions (.dispatch token entry held) (by simp [htodo])
  have hsent : run.sent future =
      { run with inCall := none, todo, ctx := run.ctx.dispatch token entry.result (.sent future) } := by
    rw [MeasurementRun.sent, htodo]
  have hphase' : (run.sent future).phase = .script := by rw [hsent, hphase]
  have hawaits : ∀ k f, (run.sent future).Awaits k f ↔
      run.ctx.Fills k f ∨ (k = run.ctx.collectedResults.length ∧ f = future) := by
    intro k f
    rw [awaits_script hphase', hsent]
    exact fills_dispatch_sent hlengths entry.result future
  refine h.record hcall htodo (by rw [hsent]) (fun action haction => ?_) (by rw [hsent]) (by rw [hsent]) (by rw [hsent])
    (fun k hk f => ?_) (Or.inr ⟨rfl, future.2, rfl, fun f => ?_⟩)
  · rw [hsent] at haction ⊢
    have hin := h.actions action (by rw [htodo]; exact List.mem_cons_of_mem _ haction)
    cases action with
    | dispatch token' entry' held' =>
        obtain ⟨-, htoken', hlengths', hfound⟩ := hin
        refine ⟨hphase, by rwa [tokenOrder_dispatch], ?_, hfound⟩
        rw [tokenResultIndices_dispatch]
        show (Function.update run.ctx.tokenFutures token (run.ctx.tokenFutures token ++ [future]) token').length = _
        by_cases ht : token' = token
        · subst ht
          rw [Function.update_self, Function.update_self, List.length_append, List.length_append, hlengths]
          rfl
        · rw [Function.update_of_ne ht, Function.update_of_ne ht, hlengths']
    | await token i future => exact hin
    | release token inst => exact hin
    | clear token => exact hin
    | send cmd => exact hin
    | awaitCall name params => exact hin
    | awaitBlock => exact hin
  · rw [hawaits]
    have hne : k ≠ run.ctx.collectedResults.length := by omega
    simp [hne]
  · have hnone : ¬ run.ctx.Fills run.ctx.collectedResults.length f := fun hfills =>
      absurd (hfills.lt_length h.books) (lt_irrefl _)
    rw [hawaits]
    simp [hnone, Dispatched.inst, hinst]

theorem raised (h : JobInv registry links run) {future : FutureRef} (hcall : run.inCall = some future)
    (hpoint : (links future.1).proxy.point future.2 = some .raised) : JobInv registry links run.raised := by
  obtain ⟨token, entry, held, todo, htodo, hinst, -⟩ := h.current future hcall
  obtain ⟨hphase, htoken, hlengths, -⟩ := h.actions (.dispatch token entry held) (by simp [htodo])
  have hraised : run.raised =
      { run with inCall := none, todo := [], ctx := run.ctx.dispatch token entry.result .raised } := by
    rw [MeasurementRun.raised, htodo]
  have hphase' : run.raised.phase = .script := by rw [hraised, hphase]
  have hawaits : ∀ k f, run.raised.Awaits k f ↔ run.ctx.Fills k f := by
    intro k f
    rw [awaits_script hphase', hraised]
    exact fills_pushResult hlengths entry.result
  refine h.record hcall htodo (by rw [hraised]) (by simp [hraised]) (by rw [hraised]) (by rw [hraised]) (by rw [hraised])
    (fun k _ f => hawaits k f) (Or.inl ⟨⟨future.2, rfl, Or.inl ⟨?_, rfl⟩⟩, fun f hf => ?_⟩)
  · rw [Dispatched.inst, hinst]
    exact hpoint
  · exact absurd (((hawaits _ f).mp hf).lt_length h.books) (lt_irrefl _)

theorem move {s t : ServerState} {c : Nat} {label : ServerLabel} (h : JobInv registry s.links (s.runs c))
    (hlinks : ∀ inst, LinkInv N (s.links inst)) (hmove : ∀ inst, ServerState.LinkMove N (s.links inst) (t.links inst))
    (hsteady : ServerState.Steady registry s label) {expects : ByteString → ByteString → Bool}
    (hrun : ServerState.RunMove expects true s t c (s.runs c) label run') (hfailed : run'.phase ≠ .failed) :
    JobInv registry t.links run' := by
  have hmoved := h.linkMove hlinks hmove
  cases hrun with
  | rest => exact hmoved
  | beginEnqueue hmode hscript op found => exact hmoved.beginEnqueue hscript expects found hsteady.1
  | beginSync hmode => contradiction
  | monitor hmode hscript => exact hmoved.monitor hscript
  | done hmode => contradiction
  | fail => exact absurd rfl hfailed
  | finish hcall htodo hphase => exact hmoved.finish hcall htodo hphase
  | dispatch hcall htodo hlink => exact hmoved.dispatch hcall htodo _
  | @noWorker token entry todo hcall htodo =>
      -- the instrument is registered, so its worker is found
      have hfound : false = decide (entry.cmd.instrumentName ∈ registry.names) :=
        hsteady entry.cmd.instrumentName (by rw [htodo]; rfl)
      obtain ⟨-, -, -, hheld⟩ := h.actions (.dispatch token entry false) (by simp [htodo])
      simp [hheld.resolve_left (by simp)] at hfound
  | await hcall htodo hvalue => exact hmoved.await hcall htodo ((hlinks _).values_of_move (hmove _) hvalue)
  | @release token inst todo found hcall htodo =>
      have hphase := h.actions (.release token inst) (by simp [htodo])
      exact hmoved.pass hcall htodo hphase rfl hcall rfl rfl rfl rfl
  | @clear token todo found hcall htodo =>
      have hphase := h.actions (.clear token) (by simp [htodo])
      exact hmoved.pass hcall htodo hphase rfl hcall rfl rfl rfl rfl
  | @send cmd todo found hcall htodo => exact (h.actions (.send cmd) (by simp [htodo])).elim
  | @skip cmd todo found hcall htodo => exact (h.actions (.send cmd) (by simp [htodo])).elim
  | @recordCall name params todo label hcall htodo resp =>
      exact (h.actions (.awaitCall name params) (by simp [htodo])).elim
  | recordBlock hcall htodo => exact (h.actions .awaitBlock (by simp [htodo])).elim
  | endBlock hcall htodo => exact (h.actions .awaitBlock (by simp [htodo])).elim
  | sent hcall hpoint => exact hmoved.sent hcall
  | raised hcall hpoint => exact hmoved.raised hcall ((hlinks _).raised_of_move (hmove _) hpoint)

/-- When a job is done, all its entries are settled. -/
theorem settled (h : JobInv registry links run) (hdone : run.phase = .done) :
    List.Forall₂ (Settled links) run.dispatched run.ctx.collectedResults := by
  have htodo : run.todo = [] := by
    refine List.eq_nil_iff_forall_not_mem.mpr fun action haction => ?_
    have hin := h.actions action haction
    cases action with
    | dispatch token entry held => exact absurd (hdone.symm.trans hin.1) (by simp)
    | await token i future => exact absurd (hdone.symm.trans hin) (by simp)
    | release token inst => exact absurd (hdone.symm.trans hin) (by simp)
    | clear token => exact absurd (hdone.symm.trans hin) (by simp)
    | send cmd => exact hin
    | awaitCall name params => exact hin
    | awaitBlock => exact hin
  have hentered : run.entered = run.dispatched := by
    cases hcall : run.inCall with
    | none => rw [entered, hcall]
    | some future =>
        obtain ⟨_, _, _, _, heq, -⟩ := h.current future hcall
        rw [htodo] at heq
        contradiction
  rw [← hentered, List.forall₂_iff_get]
  refine ⟨h.size, fun k hk hk' => ?_⟩
  rcases h.entries k _ _ (List.getElem?_eq_getElem hk) (List.getElem?_eq_getElem hk') with ⟨hsettled, -⟩ | ⟨-, p, -, hown⟩
  · exact hsettled
  · have hawaits := (hown _).mpr rfl
    rw [awaits_todo (by simp [hdone]), htodo] at hawaits
    simp [awaits] at hawaits

end JobInv

/-! ### The results of overlapping jobs -/

/-- The entry holds the response to the command that was dispatched for it. A command that `execute` could not encode was not sent, and its entry stays as it was recorded. -/
def HoldsOwn (N : JsonLibrary) (links : ByteString → WorkerLink) (d : Dispatched) (cr : CallResult) : Prop :=
  ∃ p call, d.promise = some p ∧ (links d.inst).proxy.calls p = some call ∧ (∃ id, call.cmd = { d.entry.cmd with id }) ∧
    ((call.point = .raised ∧ cr = d.entry.result) ∨
      ∃ resp, (links d.inst).RespondsTo N call resp ∧ cr = d.entry.result.populate resp)

/-- The message was made for the command. -/
def Dispatched.CarriedBy (N : JsonLibrary) (links : ByteString → WorkerLink) (d : Dispatched) (msg : IpcMessage) : Prop :=
  ∃ p call, d.promise = some p ∧ (links d.inst).proxy.calls p = some call ∧ call.Carries N msg

theorem Settled.holdsOwn {N : JsonLibrary} {links : ByteString → WorkerLink} {run : MeasurementRun} {d : Dispatched}
    {cr : CallResult} (h : Settled links d cr) (hlink : LinkInv N (links d.inst)) (hunstopped : (links d.inst).Unstopped)
    (hknown : Known links run) (hd : d ∈ run.dispatched) : HoldsOwn N links d cr := by
  obtain ⟨p, hp, hcases⟩ := h
  obtain ⟨call, hcall, hcmd⟩ := hknown d hd p hp
  refine ⟨p, call, hp, hcall, hcmd, ?_⟩
  rcases hcases with ⟨hraised, hcr⟩ | ⟨resp, hvalue, hcr⟩
  · rw [point, hcall] at hraised
    exact Or.inl ⟨Option.some.inj hraised, hcr⟩
  · exact Or.inr ⟨resp, hlink.respondsTo hunstopped hvalue hcall, hcr⟩

namespace ServerState

variable {N : JsonLibrary} {expects : ByteString → ByteString → Bool} {enqueueMode : Nat → Bool} {s t : ServerState}

/-- Failed runs stay failed. -/
theorem RunMove.failed {mode : Bool} {c : Nat} {run run' : MeasurementRun} {label : ServerLabel}
    (hmove : RunMove expects mode s t c run label run') (hfailed : run.phase = .failed) : run'.phase = .failed := by
  have hscript : ¬ run.AtScript := fun hscript => absurd (hscript.1.symm.trans hfailed) (by simp)
  cases hmove with
  | beginEnqueue hmode hthis => exact absurd hthis hscript
  | beginSync hmode hthis => exact absurd hthis hscript
  | monitor hmode hthis => exact absurd hthis hscript
  | done hmode hthis => exact absurd hthis hscript
  | fail hthis => exact absurd hthis hscript
  | finish hcall htodo hphase => exact absurd (hphase.symm.trans hfailed) (by simp)
  | sent hcall hpoint => exact (MeasurementRun.phase_sent _).trans hfailed
  | raised hcall hpoint => exact MeasurementRun.phase_raised.trans hfailed
  | rest => exact hfailed
  | dispatch => exact hfailed
  | noWorker => exact hfailed
  | await => exact hfailed
  | release => exact hfailed
  | clear => exact hfailed
  | send => exact hfailed
  | skip => exact hfailed
  | recordCall => exact hfailed
  | recordBlock => exact hfailed
  | endBlock => exact hfailed

structure ResultsInv (N : JsonLibrary) (registry : Registry) (enqueueMode : Nat → Bool) (s : ServerState) : Prop where
  links : ∀ inst, LinkInv N (s.links inst)
  unstopped : ∀ inst, (s.links inst).Unstopped
  known : ∀ c, Known s.links (s.runs c)
  own : OwnPromises s
  jobs : ∀ c, enqueueMode c = true → (s.runs c).phase ≠ .failed → JobInv registry s.links (s.runs c)

theorem ResultsInv.init (registry : Registry) : ResultsInv N registry enqueueMode (system N expects enqueueMode).init where
  links inst := LinkInv.init N inst
  unstopped inst := by simp [system, WorkerLink.Unstopped]
  known c := by simp [system, Known]
  own c c' k k' d d' p hd := by simp [system] at hd
  jobs c _ _ := JobInv.init registry _

theorem ResultsInv.step {registry : Registry} {label : ServerLabel} (h : ResultsInv N registry enqueueMode s)
    (hsteady : Steady registry s label) (hnext : s.step N expects enqueueMode label = some t) :
    ResultsInv N registry enqueueMode t := by
  have hmove := step_linkMove hnext hsteady.ne_stop
  have hruns := step_runMove hnext
  refine ⟨fun inst => linkInv_of_move (h.links inst) (hmove inst),
    fun inst => (h.links inst).unstopped_of_move (h.unstopped inst) (hmove inst), fun c => ?_,
    ownPromises_move h.own h.links h.known hruns, fun c hmode hfailed => ?_⟩
  · exact known_move (h.known c) (fun inst => grows_of_move (h.links inst) (hmove inst)) (hruns c)
  · have hmoved := hruns c
    rw [hmode] at hmoved
    have hjob := h.jobs c hmode fun hthis => hfailed ((hruns c).failed hthis)
    exact hjob.move h.links hmove hsteady hmoved hfailed

/-- In every interleaving over a fixed set of instruments, every entry in the result of a finished job holds the response to the command that the job dispatched for it, and no message was made for the commands of two entries, of one job or of two. -/
theorem job_results_own {registry : Registry} (hreach : ReachableWhile (system N expects enqueueMode) (Steady registry) s)
    {c : Nat} (hmode : enqueueMode c = true) (hdone : (s.runs c).phase = .done) :
    List.Forall₂ (HoldsOwn N s.links) (s.runs c).dispatched (s.runs c).ctx.collectedResults ∧
      ∀ (c' k k' : Nat) (d d' : Dispatched) (msg : IpcMessage), (s.runs c).dispatched[k]? = some d →
        (s.runs c').dispatched[k']? = some d' → d.inst = d'.inst → d.CarriedBy N s.links msg → d'.CarriedBy N s.links msg →
        c = c' ∧ k = k' := by
  have hinv : ResultsInv N registry enqueueMode s :=
    ReachableWhile.invariant (ResultsInv.init registry) (fun s t label h hsteady hnext => h.step hsteady hnext) hreach
  constructor
  · have hsettled := (hinv.jobs c hmode (by simp [hdone])).settled hdone
    rw [List.forall₂_iff_get] at hsettled ⊢
    refine ⟨hsettled.1, fun k hk hk' => ?_⟩
    exact (hsettled.2 k hk hk').holdsOwn (hinv.links _) (hinv.unstopped _) (hinv.known c) (List.getElem_mem hk)
  · intro c' k k' d d' msg hd hd' hinst ⟨p, call, hp, hcall, hcarries⟩ ⟨p', call', hp', hcall', hcarries'⟩
    -- the id of the message belongs to one promise only
    have hsame : p = p' := by
      refine (hinv.links d.inst).promises.distinct p p' msg.id ?_ ?_
      · rw [messageId, hcall]
        exact hcarries.1
      · rw [messageId, hinst, hcall']
        exact hcarries'.1
    exact hinv.own c c' k k' d d' p hd hd' hinst hp (hsame ▸ hp')

/-- Two jobs have a command for one instrument on the way; the one that sent last is done first. -/
def overlappingJobs : List ServerLabel :=
  [.begin 0 (.call dmmAndScope.names ⟨bytes "DMM.MEASURE", .positional []⟩) true] ++ sentTo 0 (bytes "DMM") 0 ++
    [.begin 1 (.call dmmAndScope.names ⟨bytes "DMM.READ", .positional []⟩) true] ++ sentTo 1 (bytes "DMM") 1 ++
    executedOn (bytes "DMM") ++ executedOn (bytes "DMM") ++
    [.endScript 1, .endScript 0] ++ List.replicate 5 (.act 1 true) ++ List.replicate 5 (.act 0 true)

theorem job_results_own_overlappingJobs :
    ∃ s, ReachableWhile (system .compact (fun _ _ => true) fun _ => true) (Steady dmmAndScope) s ∧
      (s.runs 0).dispatched.length = 1 ∧ (s.runs 1).dispatched.length = 1 ∧
      List.Forall₂ (HoldsOwn .compact s.links) (s.runs 0).dispatched (s.runs 0).ctx.collectedResults ∧
      List.Forall₂ (HoldsOwn .compact s.links) (s.runs 1).dispatched (s.runs 1).ctx.collectedResults := by
  obtain ⟨s, hreach, hthis⟩ := @ReachableWhile.of_any _ _ (system .compact (fun _ _ => true) fun _ => true)
    (Steady dmmAndScope) _ overlappingJobs
    (fun s => (decide ((s.runs 0).phase = .done) && decide ((s.runs 1).phase = .done)) &&
      (decide ((s.runs 0).dispatched.length = 1) && decide ((s.runs 1).dispatched.length = 1))) (by decide +kernel)
  simp only [Bool.and_eq_true, decide_eq_true_eq] at hthis
  obtain ⟨⟨hdone, hdone'⟩, hone, hone'⟩ := hthis
  exact ⟨s, hreach, hone, hone', (job_results_own hreach rfl hdone).1, (job_results_own hreach rfl hdone').1⟩

end ServerState

end InstrumentServer
