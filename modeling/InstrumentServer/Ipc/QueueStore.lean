import InstrumentServer.Ipc.Message
import InstrumentServer.Lib.NamedQueues
import InstrumentServer.Lib.Transition

/-!
# The shared queues

`SharedQueue` and the named message queues of the operating system, with all the processes that use them: the server creates a pair of queues under the name of an instrument, a worker opens the pair that the name stands for, and either sends into one queue of its pair and receives from the other. The server removes the names before it creates a pair, so a restarted instrument gets new queues, and whoever still has the old pair is cut off.

Nothing makes the two names of a pair change together: each of the functions goes to the operating system for one name after the other, and other calls may come in between. A worker that opens the request queue before a restart and the response queue after it has half of each pair. `Orderly` rules this out: nobody begins to create or remove the queues of an instrument while another call for its queues is under way.

The names are handed over as C strings. A name with a NUL in it makes the two names of a pair the same, and the creation of the second queue throws.

`sent` and `received` are history only: which handle sent and received which messages, for each queue.
-/

namespace InstrumentServer.Ipc

open ByteString Transition

/-- `make_queue_name(..).c_str()` -/
def queueName (instrument suffix : ByteString) : ByteString :=
  (bytes "instrument_" ++ instrument ++ bytes "_" ++ suffix).takeWhile (· ≠ 0)

def requestName (instrument : ByteString) : ByteString := queueName instrument (bytes "req")

def responseName (instrument : ByteString) : ByteString := queueName instrument (bytes "resp")

def maxMessages : Nat := 100

abbrev QueueStore : Type := NamedQueues ByteString IpcMessage

/-- A `SharedQueue` object. -/
structure QueueHandle where
  instrument : ByteString
  request : Nat
  response : Nat
  isServer : Bool
deriving DecidableEq

/-- The queue that the handle sends into. -/
def QueueHandle.outgoing (h : QueueHandle) : Nat := if h.isServer then h.request else h.response

/-- The queue that the handle receives from. -/
def QueueHandle.incoming (h : QueueHandle) : Nat := if h.isServer then h.response else h.request

/-- A call that is under way: how far it is, and the queue it has. -/
inductive QueueCall where
  /-- `cleanup`, after the first name is removed -/
  | cleaning (instrument : ByteString)
  /-- `create_server_queue`, after the first name is removed -/
  | removing (instrument : ByteString)
  /-- after both are -/
  | creating (instrument : ByteString)
  | created (instrument : ByteString) (request : Nat)
  /-- `create_worker_queue`, after the request queue is opened -/
  | opened (instrument : ByteString) (request : Nat)
deriving DecidableEq

namespace QueueCall

def instrument : QueueCall → ByteString
  | cleaning instrument | removing instrument | creating instrument | created instrument _ | opened instrument _ =>
      instrument

/-- The call creates or removes queues. -/
def Writes : QueueCall → Prop
  | cleaning _ | removing _ | creating _ | created _ _ => True
  | opened _ _ => False

/-- The rest of the call up to its next stop, with the handle it returns at its end. It ends without one after an exception; `granted` says whether there is memory for a queue. -/
def go (s : QueueStore) (granted : Bool) : QueueCall → QueueStore × Option QueueCall × Option QueueHandle
  | cleaning instrument => (s.remove (responseName instrument), none, none)
  | removing instrument => (s.remove (responseName instrument), some (creating instrument), none)
  | creating instrument =>
      match if granted then s.create (requestName instrument) else none with
      | none => (s, none, none)
      | some (s, request) => (s, some (created instrument request), none)
  | created instrument request =>
      match if granted then s.create (responseName instrument) else none with
      | none => (s, none, none)
      | some (s, response) => (s, none, some ⟨instrument, request, response, true⟩)
  | opened instrument request =>
      (s, none, (s.names (responseName instrument)).map fun response => ⟨instrument, request, response, false⟩)

end QueueCall

/-! ### All processes -/

structure QueueWorld where
  store : QueueStore
  /-- the calls under way -/
  calls : List QueueCall
  /-- every handle that was ever made -/
  handles : List QueueHandle
  sent : Nat → List (Nat × IpcMessage)
  received : Nat → List (Nat × IpcMessage)

inductive QueueLabel where
  | createServerQueue (instrument : ByteString)
  | createWorkerQueue (instrument : ByteString)
  | cleanup (instrument : ByteString)
  /-- a call goes on -/
  | go (call : QueueCall) (granted : Bool)
  | send (handle : Nat) (msg : IpcMessage)
  | receive (handle : Nat)

namespace QueueWorld

def init : QueueWorld := ⟨NamedQueues.empty, [], [], fun _ => [], fun _ => []⟩

/-- `send`; a queue that stays full until the deadline leaves everything as it is. -/
def send (w : QueueWorld) (i : Nat) (h : QueueHandle) (msg : IpcMessage) : QueueWorld × Bool :=
  match w.store.send maxMessages h.outgoing msg with
  | none => (w, false)
  | some store =>
      ({ w with store, sent := Function.update w.sent h.outgoing (w.sent h.outgoing ++ [(i, msg)]) }, true)

/-- `receive`; a queue that stays empty until the deadline gives nothing. -/
def receive (w : QueueWorld) (i : Nat) (h : QueueHandle) : QueueWorld × Option IpcMessage :=
  match w.store.receive h.incoming with
  | none => (w, none)
  | some (msg, store) =>
      ({ w with store, received := Function.update w.received h.incoming (w.received h.incoming ++ [(i, msg)]) }, some msg)

def createServerQueue (w : QueueWorld) (instrument : ByteString) : QueueWorld :=
  { w with store := w.store.remove (requestName instrument), calls := w.calls ++ [.removing instrument] }

/-- A queue that is not there is an exception. -/
def createWorkerQueue (w : QueueWorld) (instrument : ByteString) : QueueWorld :=
  { w with calls := w.calls ++ ((w.store.names (requestName instrument)).map (QueueCall.opened instrument)).toList }

def cleanup (w : QueueWorld) (instrument : ByteString) : QueueWorld :=
  { w with store := w.store.remove (requestName instrument), calls := w.calls ++ [.cleaning instrument] }

def go (w : QueueWorld) (call : QueueCall) (granted : Bool) : QueueWorld :=
  let next := call.go w.store granted
  { w with
    store := next.1
    calls := w.calls.erase call ++ next.2.1.toList
    handles := w.handles ++ next.2.2.toList }

def step (w : QueueWorld) : QueueLabel → Option QueueWorld
  | .createServerQueue instrument => some (w.createServerQueue instrument)
  | .createWorkerQueue instrument => some (w.createWorkerQueue instrument)
  | .cleanup instrument => some (w.cleanup instrument)
  | .go call granted => if call ∈ w.calls then some (w.go call granted) else none
  | .send i msg => (w.handles[i]?).map fun h => (w.send i h msg).1
  | .receive i => (w.handles[i]?).map fun h => (w.receive i h).1

def system : System QueueWorld QueueLabel := ⟨init, step⟩

end QueueWorld

/-- The instrument of the step is named without a NUL. -/
def NamedByText : QueueLabel → Prop
  | .createServerQueue instrument | .createWorkerQueue instrument | .cleanup instrument => 0 ∉ instrument
  | .go .. | .send .. | .receive _ => True

instance : (label : QueueLabel) → Decidable (NamedByText label)
  | .createServerQueue _ | .createWorkerQueue _ | .cleanup _ => inferInstanceAs (Decidable (0 ∉ _))
  | .go .. | .send .. | .receive _ => isTrue trivial

/-- Nobody begins to create or remove the queues of an instrument while another call for them is under way. -/
def Undisturbed (w : QueueWorld) : QueueLabel → Prop
  | .createServerQueue instrument | .cleanup instrument => ∀ call ∈ w.calls, call.instrument ≠ instrument
  | .createWorkerQueue _ | .go .. | .send .. | .receive _ => True

instance (w : QueueWorld) : (label : QueueLabel) → Decidable (Undisturbed w label)
  | .createServerQueue _ | .cleanup _ => inferInstanceAs (Decidable (∀ call ∈ w.calls, _))
  | .createWorkerQueue _ | .go .. | .send .. | .receive _ => isTrue trivial

def Orderly (w : QueueWorld) (label : QueueLabel) : Prop := NamedByText label ∧ Undisturbed w label

instance (w : QueueWorld) (label : QueueLabel) : Decidable (Orderly w label) := inferInstanceAs (Decidable (_ ∧ _))

/-! ### Names -/

theorem queueName_of_text {instrument suffix : ByteString} (hinstrument : 0 ∉ instrument) (hsuffix : 0 ∉ suffix) :
    queueName instrument suffix = bytes "instrument_" ++ instrument ++ 95 :: suffix := by
  have htext : bytes "instrument_" ++ instrument ++ bytes "_" ++ suffix =
      bytes "instrument_" ++ instrument ++ 95 :: suffix := by
    simp [show bytes "_" = [95] by decide]
  have hbegins : (0 : UInt8) ∉ bytes "instrument_" := by decide
  have hzero : 0 ∉ bytes "instrument_" ++ instrument ++ 95 :: suffix := by
    simp only [List.mem_append, List.mem_cons, not_or]
    exact ⟨⟨hbegins, hinstrument⟩, by decide, hsuffix⟩
  rw [queueName, htext, Lists.takeWhile_ne_self hzero]

/-- Without NULs the name of a queue says whose it is and which. -/
theorem queueName_inj {instrument instrument' suffix suffix' : ByteString} (hinstrument : 0 ∉ instrument)
    (hinstrument' : 0 ∉ instrument') (hsuffix : suffix = bytes "req" ∨ suffix = bytes "resp")
    (hsuffix' : suffix' = bytes "req" ∨ suffix' = bytes "resp")
    (hname : queueName instrument suffix = queueName instrument' suffix') :
    instrument = instrument' ∧ suffix = suffix' := by
  have hplain : ∀ text, text = bytes "req" ∨ text = bytes "resp" → 0 ∉ text ∧ 95 ∉ text := by
    rintro text (rfl | rfl) <;> decide
  rw [queueName_of_text hinstrument (hplain suffix hsuffix).1, queueName_of_text hinstrument' (hplain suffix' hsuffix').1]
    at hname
  have hsame := Lists.eq_of_append_separator hname (hplain suffix hsuffix).2 (hplain suffix' hsuffix').2
  subst hsame
  rw [List.append_cancel_right_eq, List.append_cancel_left_eq] at hname
  exact ⟨hname, rfl⟩

theorem requestName_inj {instrument instrument' : ByteString} (hinstrument : 0 ∉ instrument) (hinstrument' : 0 ∉ instrument')
    (hname : requestName instrument = requestName instrument') : instrument = instrument' :=
  (queueName_inj hinstrument hinstrument' (Or.inl rfl) (Or.inl rfl) hname).1

theorem responseName_inj {instrument instrument' : ByteString} (hinstrument : 0 ∉ instrument)
    (hinstrument' : 0 ∉ instrument') (hname : responseName instrument = responseName instrument') :
    instrument = instrument' :=
  (queueName_inj hinstrument hinstrument' (Or.inr rfl) (Or.inr rfl) hname).1

theorem requestName_ne_responseName {instrument instrument' : ByteString} (hinstrument : 0 ∉ instrument)
    (hinstrument' : 0 ∉ instrument') : requestName instrument ≠ responseName instrument' := fun hname =>
  absurd (queueName_inj hinstrument hinstrument' (Or.inl rfl) (Or.inr rfl) hname).2 (by decide)

/-! ### The names and the calls under way -/

/-- What a call that is under way has found or made, and what nobody has changed since. -/
def UnderWay (s : QueueStore) (handles : List QueueHandle) : QueueCall → Prop
  | .cleaning instrument | .removing instrument => s.names (requestName instrument) = none
  | .creating instrument => s.names (requestName instrument) = none ∧ s.names (responseName instrument) = none
  | .created instrument q => s.names (requestName instrument) = some q ∧ s.names (responseName instrument) = none ∧
      ∀ h ∈ handles, h.isServer = true → h.request ≠ q ∧ h.response ≠ q
  | .opened instrument q => s.names (requestName instrument) = some q

/-- Two calls that both write are for different instruments. -/
def Apart (call call' : QueueCall) : Prop := call.Writes → call'.Writes → call.instrument ≠ call'.instrument

theorem Apart.symm {call call' : QueueCall} (h : Apart call call') : Apart call' call :=
  fun hwrites hwrites' heq => h hwrites' hwrites heq.symm

/-- The names of one instrument are the same in two stores. -/
def SameNames (s s' : QueueStore) (instrument : ByteString) : Prop :=
  s'.names (requestName instrument) = s.names (requestName instrument) ∧
    s'.names (responseName instrument) = s.names (responseName instrument)

/-- Names that both stand for a queue are those of a pair. -/
structure NamesInv (s : QueueStore) (calls : List QueueCall) (handles : List QueueHandle) : Prop where
  wellNamed : s.WellNamed
  named : ∀ call ∈ calls, 0 ∉ call.instrument
  apart : calls.Pairwise Apart
  underWay : ∀ call ∈ calls, UnderWay s handles call
  opens : ∀ instrument q q', 0 ∉ instrument → s.names (requestName instrument) = some q →
    s.names (responseName instrument) = some q' → ∃ h ∈ handles, h.isServer = true ∧ h.instrument = instrument ∧
      h.request = q ∧ h.response = q'

section Names

variable {s s' : QueueStore} {calls : List QueueCall} {handles : List QueueHandle} {call : QueueCall}
  {instrument other : ByteString}

theorem sameNames_of_ne (hinstrument : 0 ∉ instrument) (hother : 0 ∉ other) (hne : other ≠ instrument)
    (hnames : ∀ name, name ≠ requestName instrument → name ≠ responseName instrument → s'.names name = s.names name) :
    SameNames s s' other :=
  ⟨hnames _ (fun heq => hne (requestName_inj hother hinstrument heq)) (requestName_ne_responseName hother hinstrument),
    hnames _ (fun heq => requestName_ne_responseName hinstrument hother heq.symm)
      fun heq => hne (responseName_inj hother hinstrument heq)⟩

theorem UnderWay.sameNames (h : UnderWay s handles call) (hsame : SameNames s s' call.instrument) :
    UnderWay s' handles call := by
  obtain ⟨hrequest, hresponse⟩ := hsame
  cases call with
  | cleaning instrument | removing instrument | opened instrument q => exact hrequest.trans h
  | creating instrument => exact ⟨hrequest.trans h.1, hresponse.trans h.2⟩
  | created instrument q => exact ⟨hrequest.trans h.1, hresponse.trans h.2.1, h.2.2⟩

/-- One more handle, which has none of the queues that are being created. -/
theorem UnderWay.more (h : UnderWay s handles call) {g : QueueHandle}
    (hnew : ∀ instrument q, call = .created instrument q → g.isServer = true → g.request ≠ q ∧ g.response ≠ q) :
    UnderWay s (handles ++ [g]) call := by
  cases call with
  | created instrument q =>
      refine ⟨h.1, h.2.1, fun k hk hserver => ?_⟩
      rcases List.mem_append.mp hk with hk | hk
      · exact h.2.2 k hk hserver
      · obtain rfl := List.mem_singleton.mp hk
        exact hnew instrument q rfl hserver
  | cleaning | removing | creating | opened => exact h

namespace NamesInv

/-- A call is at its end. -/
theorem drop (h : NamesInv s calls handles) (call : QueueCall) : NamesInv s (calls.erase call) handles where
  wellNamed := h.wellNamed
  named other hother := h.named other (List.mem_of_mem_erase hother)
  apart := h.apart.sublist List.erase_sublist
  underWay other hother := h.underWay other (List.mem_of_mem_erase hother)
  opens := h.opens

/-- The calls besides one that writes: for its instrument they only open. -/
theorem opened_of_same (h : NamesInv s calls handles) (hcall : call ∈ calls) (hwrites : call.Writes) {c : QueueCall}
    (hc : c ∈ calls.erase call) (hsame : c.instrument = call.instrument) :
    ∃ q, c = .opened call.instrument q ∧ s.names (requestName call.instrument) = some q := by
  have hapart : Apart call c := by
    have hpairs := (List.perm_cons_erase hcall).pairwise_iff Apart.symm |>.mp h.apart
    exact (List.pairwise_cons.mp hpairs).1 c hc
  have hunder := h.underWay c (List.mem_of_mem_erase hc)
  cases c with
  | opened other q =>
      obtain rfl : other = call.instrument := hsame
      exact ⟨q, rfl, hunder⟩
  | cleaning | removing | creating | created => exact absurd hsame.symm (hapart hwrites trivial)

/-- One more call, if none that writes is for the same instrument. -/
theorem begin (h : NamesInv s calls handles) (hnamed : 0 ∉ call.instrument) (hapart : ∀ c ∈ calls, Apart c call)
    (hunder : UnderWay s handles call) : NamesInv s (calls ++ [call]) handles where
  wellNamed := h.wellNamed
  named c hc := by
    rcases List.mem_append.mp hc with hc | hc
    · exact h.named c hc
    · obtain rfl := List.mem_singleton.mp hc
      exact hnamed
  apart := List.pairwise_append.mpr
    ⟨h.apart, List.pairwise_singleton _ _, fun c hc c' hc' => List.mem_singleton.mp hc' ▸ hapart c hc⟩
  underWay c hc := by
    rcases List.mem_append.mp hc with hc | hc
    · exact h.underWay c hc
    · obtain rfl := List.mem_singleton.mp hc
      exact hunder
  opens := h.opens

/-- A call goes on as another one for the same instrument. -/
theorem goOn (h : NamesInv s (calls.erase call) handles) (hbefore : NamesInv s' calls handles) (hcall : call ∈ calls)
    (hwrites : call.Writes) (next : QueueCall) (hsame : next.instrument = call.instrument)
    (hunder : UnderWay s handles next) : NamesInv s (calls.erase call ++ [next]) handles := by
  refine h.begin (hsame ▸ hbefore.named call hcall) (fun c hc hcw hnext heq => ?_) hunder
  obtain ⟨q, rfl, -⟩ := hbefore.opened_of_same hcall hwrites hc (heq.trans hsame)
  exact hcw

/-- One more handle, which has no queue that is being created. -/
theorem more (h : NamesInv s calls handles) {g : QueueHandle} (hunder : ∀ c ∈ calls, UnderWay s (handles ++ [g]) c) :
    NamesInv s calls (handles ++ [g]) where
  wellNamed := h.wellNamed
  named := h.named
  apart := h.apart
  underWay := hunder
  opens other q q' hother hrequest hresponse := by
    obtain ⟨k, hk, hsame⟩ := h.opens other q q' hother hrequest hresponse
    exact ⟨k, List.mem_append_left _ hk, hsame⟩

/-- Messages go in and out, and the names stay. -/
theorem of_names (h : NamesInv s calls handles) (hnames : s'.names = s.names) (hnext : s'.next = s.next) :
    NamesInv s' calls handles where
  wellNamed := by
    refine ⟨?_, ?_⟩
    · rw [hnames, hnext]
      exact h.wellNamed.below
    · rw [hnames]
      exact h.wellNamed.unique
  named := h.named
  apart := h.apart
  underWay c hc := (h.underWay c hc).sameNames ⟨congrFun hnames _, congrFun hnames _⟩
  opens := by
    rw [hnames]
    exact h.opens

/-- The queues of one instrument change under a call that writes, and more handles may be there. -/
theorem change (h : NamesInv s calls handles) (hcall : call ∈ calls) (hwrites : call.Writes) {handles' : List QueueHandle}
    (hmore : handles ⊆ handles') (hunder : ∀ c ∈ calls.erase call, UnderWay s handles' c) (hwell : s'.WellNamed)
    (hnames : ∀ name, name ≠ requestName call.instrument → name ≠ responseName call.instrument → s'.names name = s.names name)
    (hkept : ∀ q, s.names (requestName call.instrument) = some q → s'.names (requestName call.instrument) = some q)
    (hopens : ∀ q q', s'.names (requestName call.instrument) = some q → s'.names (responseName call.instrument) = some q' →
      ∃ h ∈ handles', h.isServer = true ∧ h.instrument = call.instrument ∧ h.request = q ∧ h.response = q') :
    NamesInv s' (calls.erase call) handles' where
  wellNamed := hwell
  named c hc := h.named c (List.mem_of_mem_erase hc)
  apart := h.apart.sublist List.erase_sublist
  underWay c hc := by
    by_cases hsame : c.instrument = call.instrument
    · obtain ⟨q, rfl, hopened⟩ := h.opened_of_same hcall hwrites hc hsame
      exact hkept q hopened
    · exact (hunder c hc).sameNames
        (sameNames_of_ne (h.named call hcall) (h.named c (List.mem_of_mem_erase hc)) hsame hnames)
  opens other q q' hother hrequest hresponse := by
    by_cases hsame : other = call.instrument
    · subst hsame
      exact hopens q q' hrequest hresponse
    · obtain ⟨hreq, hresp⟩ := sameNames_of_ne (h.named call hcall) hother hsame hnames
      obtain ⟨k, hk, hpair⟩ := h.opens other q q' hother (hreq ▸ hrequest) (hresp ▸ hresponse)
      exact ⟨k, hmore hk, hpair⟩

/-- The first name is removed by a call that begins, while no other call for the instrument is under way. -/
theorem removeFirst (h : NamesInv s calls handles) (hnamed : 0 ∉ instrument)
    (halone : ∀ call ∈ calls, call.instrument ≠ instrument) :
    NamesInv (s.remove (requestName instrument)) calls handles where
  wellNamed := h.wellNamed.remove _
  named := h.named
  apart := h.apart
  underWay c hc := by
    refine (h.underWay c hc).sameNames (sameNames_of_ne hnamed (h.named c hc) (halone c hc) fun name hrequest _ => ?_)
    rw [NamedQueues.names_remove, if_neg hrequest]
  opens other q q' hother hrequest hresponse := by
    rw [NamedQueues.names_remove] at hrequest hresponse
    split at hrequest
    · simp at hrequest
    · split at hresponse
      · simp at hresponse
      · exact h.opens other q q' hother hrequest hresponse

/-- The second name is removed under a call that has removed the first. -/
theorem removeSecond (h : NamesInv s calls handles) (hcall : call ∈ calls) (hwrites : call.Writes)
    (hremoved : s.names (requestName call.instrument) = none) :
    NamesInv (s.remove (responseName call.instrument)) (calls.erase call) handles := by
  refine h.change hcall hwrites (List.Subset.refl _) (fun c hc => h.underWay c (List.mem_of_mem_erase hc))
    (h.wellNamed.remove _) (fun name _ hresponse => ?_) (fun q hq => ?_) fun q q' hrequest _ => ?_
  · rw [NamedQueues.names_remove, if_neg hresponse]
  · simp [hremoved] at hq
  · rw [NamedQueues.names_remove, if_neg (requestName_ne_responseName (h.named call hcall) (h.named call hcall)),
      hremoved] at hrequest
    simp at hrequest

end NamesInv

end Names

/-! ### The handles -/

/-- What the handles have in common with one another; the numbers of queues are below `next`. -/
structure HandleInv (next : Nat) (handles : List QueueHandle) : Prop where
  below : ∀ h ∈ handles, h.request < next ∧ h.response < next
  apart : ∀ h ∈ handles, ∀ g ∈ handles, h.request ≠ g.response
  /-- a queue has one handle of the server -/
  alone : ∀ (i j : Nat) (h g : QueueHandle), handles[i]? = some h → handles[j]? = some g → h.isServer = true →
    g.isServer = true → h.request = g.request ∨ h.response = g.response → i = j
  /-- a worker has the pair of a handle of the server for its instrument -/
  attached : ∀ g ∈ handles, ∃ h ∈ handles, h.isServer = true ∧ h.instrument = g.instrument ∧
    h.request = g.request ∧ h.response = g.response

/-- An entry of a longer list is an old one or the last. -/
theorem getElem?_concat_cases {handles : List QueueHandle} {last g : QueueHandle} {i : Nat}
    (hi : (handles ++ [last])[i]? = some g) : handles[i]? = some g ∨ i = handles.length ∧ g = last := by
  rw [List.getElem?_append] at hi
  split at hi
  · exact Or.inl hi
  · obtain ⟨hzero, hg⟩ := List.getElem?_eq_some_iff.mp hi
    rw [List.length_singleton] at hzero
    refine Or.inr ⟨by omega, ?_⟩
    rw [← hg]
    simp

namespace HandleInv

variable {next : Nat} {handles : List QueueHandle}

theorem mono (h : HandleInv next handles) {next' : Nat} (hnext : next ≤ next') : HandleInv next' handles :=
  ⟨fun g hg => ⟨lt_of_lt_of_le (h.below g hg).1 hnext, lt_of_lt_of_le (h.below g hg).2 hnext⟩, h.apart, h.alone, h.attached⟩

/-- A worker has opened the pair of a handle of the server. -/
theorem addWorker (h : HandleInv next handles) {g : QueueHandle} (hworker : g.isServer = false)
    (hpair : ∃ k ∈ handles, k.isServer = true ∧ k.instrument = g.instrument ∧ k.request = g.request ∧ k.response = g.response) :
    HandleInv next (handles ++ [g]) := by
  have hold : ∀ k ∈ handles ++ [g], ∃ k' ∈ handles, k'.isServer = true ∧ k'.instrument = k.instrument ∧
      k'.request = k.request ∧ k'.response = k.response := by
    intro k hk
    rcases List.mem_append.mp hk with hk | hk
    · exact h.attached k hk
    · obtain rfl := List.mem_singleton.mp hk
      exact hpair
  have hserver : ∀ (i : Nat) (k : QueueHandle), (handles ++ [g])[i]? = some k → k.isServer = true → handles[i]? = some k := by
    intro i k hi hk
    refine (getElem?_concat_cases hi).resolve_right ?_
    rintro ⟨-, rfl⟩
    simp [hworker] at hk
  refine ⟨fun k hk => ?_, fun k hk k' hk' => ?_, fun i j k k' hi hj hks hks' => ?_, fun k hk => ?_⟩
  · obtain ⟨m, hm, -, -, hrequest, hresponse⟩ := hold k hk
    rw [← hrequest, ← hresponse]
    exact h.below m hm
  · obtain ⟨m, hm, -, -, hrequest, -⟩ := hold k hk
    obtain ⟨m', hm', -, -, -, hresponse⟩ := hold k' hk'
    rw [← hrequest, ← hresponse]
    exact h.apart m hm m' hm'
  · exact h.alone i j k k' (hserver i k hi hks) (hserver j k' hj hks') hks hks'
  · obtain ⟨m, hm, hsame⟩ := hold k hk
    exact ⟨m, List.mem_append_left _ hm, hsame⟩

/-- The server has a new pair: a request queue that no handle of the server has, and the newest queue. -/
theorem addServer (h : HandleInv next handles) {instrument : ByteString} {q : Nat} (hbelow : q < next)
    (hfresh : ∀ g ∈ handles, g.isServer = true → g.request ≠ q ∧ g.response ≠ q) :
    HandleInv (next + 1) (handles ++ [⟨instrument, q, next, true⟩]) := by
  have hall : ∀ g ∈ handles, g.request ≠ q ∧ g.response ≠ q := by
    intro g hg
    obtain ⟨k, hk, hserver, -, hrequest, hresponse⟩ := h.attached g hg
    rw [← hrequest, ← hresponse]
    exact hfresh k hk hserver
  have hmem : ∀ g ∈ handles ++ [⟨instrument, q, next, true⟩], g ∈ handles ∨ g = ⟨instrument, q, next, true⟩ :=
    fun g hg => (List.mem_append.mp hg).imp_right List.mem_singleton.mp
  refine ⟨fun g hg => ?_, fun g hg k hk => ?_, fun i j g k hi hj hgs hks hsame => ?_, fun g hg => ?_⟩
  · rcases hmem g hg with hg | rfl
    · exact (h.mono (Nat.le_succ next)).below g hg
    · exact ⟨Nat.lt_succ_of_lt hbelow, Nat.lt_succ_self next⟩
  · rcases hmem g hg with hg | rfl <;> rcases hmem k hk with hk | rfl
    · exact h.apart g hg k hk
    · exact (h.below g hg).1.ne
    · exact (hall k hk).2.symm
    · exact hbelow.ne
  · rcases getElem?_concat_cases hi with hi | ⟨rfl, rfl⟩ <;> rcases getElem?_concat_cases hj with hj | ⟨rfl, rfl⟩
    · exact h.alone i j g k hi hj hgs hks hsame
    · have hg := List.mem_of_getElem? hi
      rcases hsame with hsame | hsame
      · exact absurd hsame (hall g hg).1
      · exact absurd hsame (h.below g hg).2.ne
    · have hk := List.mem_of_getElem? hj
      rcases hsame with hsame | hsame
      · exact absurd hsame.symm (hall k hk).1
      · exact absurd hsame.symm (h.below k hk).2.ne
    · rfl
  · rcases hmem g hg with hg | rfl
    · obtain ⟨k, hk, hsame⟩ := h.attached g hg
      exact ⟨k, List.mem_append_left _ hk, hsame⟩
    · exact ⟨_, List.mem_append_right _ (List.mem_singleton.mpr rfl), rfl, rfl, rfl, rfl⟩

end HandleInv

/-! ### The invariant -/

namespace QueueWorld

/-- The invariant of the queues, the calls, the handles and their history. -/
structure ChannelInv (w : QueueWorld) : Prop where
  names : NamesInv w.store w.calls w.handles
  handles : HandleInv w.store.next w.handles
  balanced : w.store.Balanced maxMessages (fun q => (w.sent q).map Prod.snd) (fun q => (w.received q).map Prod.snd)
  senders : ∀ q, ∀ e ∈ w.sent q, ∃ h, w.handles[e.1]? = some h ∧ h.outgoing = q
  receivers : ∀ q, ∀ e ∈ w.received q, ∃ h, w.handles[e.1]? = some h ∧ h.incoming = q

namespace ChannelInv

variable {w : QueueWorld}

theorem init : ChannelInv QueueWorld.init where
  names := by
    refine ⟨NamedQueues.wellNamed_empty, ?_, ?_, ?_, ?_⟩ <;> simp [QueueWorld.init, NamedQueues.empty]
  handles := by constructor <;> simp [QueueWorld.init]
  balanced := ⟨fun _ => rfl, fun _ => Nat.zero_le _⟩
  senders := by simp [QueueWorld.init]
  receivers := by simp [QueueWorld.init]

/-- Handles keep their places when more are made. -/
theorem getElem?_more {handles : List QueueHandle} {i : Nat} {h : QueueHandle} (hi : handles[i]? = some h)
    (more : List QueueHandle) : (handles ++ more)[i]? = some h :=
  (List.getElem?_append_left (List.getElem?_eq_some_iff.mp hi).1).trans hi

/-- The names, the calls and the handles change, and no message moves. -/
theorem replace (h : ChannelInv w) {store : QueueStore} {calls : List QueueCall} {more : List QueueHandle}
    (hcontents : store.contents = w.store.contents) (hnames : NamesInv store calls (w.handles ++ more))
    (hhandles : HandleInv store.next (w.handles ++ more)) :
    ChannelInv { w with store, calls, handles := w.handles ++ more } where
  names := hnames
  handles := hhandles
  balanced := h.balanced.of_contents hcontents
  senders q e he := by
    obtain ⟨k, hk, hout⟩ := h.senders q e he
    exact ⟨k, getElem?_more hk _, hout⟩
  receivers q e he := by
    obtain ⟨k, hk, hin⟩ := h.receivers q e he
    exact ⟨k, getElem?_more hk _, hin⟩

/-- No handle is made. -/
theorem replaceCalls (h : ChannelInv w) {store : QueueStore} {calls : List QueueCall}
    (hcontents : store.contents = w.store.contents) (hnext : w.store.next ≤ store.next)
    (hnames : NamesInv store calls w.handles) : ChannelInv { w with store, calls } := by
  have hreplaced := @replace w h store calls [] hcontents
  rw [List.append_nil] at hreplaced
  exact hreplaced hnames (h.handles.mono hnext)

/-- A call begins that removes the first name before anything else. -/
theorem removeFirst (h : ChannelInv w) (call : QueueCall) (hnamed : 0 ∉ call.instrument)
    (halone : ∀ other ∈ w.calls, other.instrument ≠ call.instrument)
    (hunder : UnderWay (w.store.remove (requestName call.instrument)) w.handles call) :
    ChannelInv { w with store := w.store.remove (requestName call.instrument), calls := w.calls ++ [call] } :=
  h.replaceCalls rfl le_rfl
    ((h.names.removeFirst hnamed halone).begin hnamed (fun other hother _ _ => halone other hother) hunder)

theorem createServerQueue (h : ChannelInv w) {instrument : ByteString} (hnamed : 0 ∉ instrument)
    (halone : ∀ call ∈ w.calls, call.instrument ≠ instrument) : ChannelInv (w.createServerQueue instrument) :=
  h.removeFirst (.removing instrument) hnamed halone ((NamedQueues.names_remove _ _).trans (if_pos rfl))

theorem cleanup (h : ChannelInv w) {instrument : ByteString} (hnamed : 0 ∉ instrument)
    (halone : ∀ call ∈ w.calls, call.instrument ≠ instrument) : ChannelInv (w.cleanup instrument) :=
  h.removeFirst (.cleaning instrument) hnamed halone ((NamedQueues.names_remove _ _).trans (if_pos rfl))

theorem createWorkerQueue (h : ChannelInv w) {instrument : ByteString} (hnamed : 0 ∉ instrument) :
    ChannelInv (w.createWorkerQueue instrument) := by
  refine h.replaceCalls rfl le_rfl ?_
  cases hrequest : w.store.names (requestName instrument) with
  | none => simpa using h.names
  | some q => exact h.names.begin hnamed (fun _ _ _ hwrites => hwrites.elim) hrequest

/-- The second name is removed, by `cleanup` or before a pair is created. -/
theorem cleaning (h : ChannelInv w) {instrument : ByteString} (hcall : QueueCall.cleaning instrument ∈ w.calls) :
    ChannelInv { w with
      store := w.store.remove (responseName instrument)
      calls := w.calls.erase (.cleaning instrument) } :=
  h.replaceCalls rfl le_rfl (h.names.removeSecond hcall trivial (h.names.underWay _ hcall))

theorem removing (h : ChannelInv w) {instrument : ByteString} (hcall : QueueCall.removing instrument ∈ w.calls) :
    ChannelInv { w with
      store := w.store.remove (responseName instrument)
      calls := w.calls.erase (.removing instrument) ++ [.creating instrument] } := by
  have hnamed : 0 ∉ instrument := h.names.named _ hcall
  have hremoved : w.store.names (requestName instrument) = none := h.names.underWay _ hcall
  refine h.replaceCalls rfl le_rfl ?_
  refine (h.names.removeSecond hcall trivial hremoved).goOn h.names hcall trivial (.creating instrument) rfl ⟨?_, ?_⟩
  · exact (NamedQueues.names_remove _ _).trans ((if_neg (requestName_ne_responseName hnamed hnamed)).trans hremoved)
  · exact (NamedQueues.names_remove _ _).trans (if_pos rfl)

/-- The request queue is created under its name, which is free. -/
theorem creating (h : ChannelInv w) {instrument : ByteString} (hcall : QueueCall.creating instrument ∈ w.calls)
    {store : QueueStore} {q : Nat} (hcreate : w.store.create (requestName instrument) = some (store, q)) :
    ChannelInv { w with store, calls := w.calls.erase (.creating instrument) ++ [.created instrument q] } := by
  obtain ⟨hrequest, hresponse⟩ := h.names.underWay _ hcall
  have hnamed : 0 ∉ instrument := h.names.named _ hcall
  have hwell := h.names.wellNamed.create hcreate
  obtain ⟨rfl, hnext, hcontents, hnames⟩ := NamedQueues.create_eq_some hcreate
  have hfree : store.names (responseName instrument) = none := by
    rw [hnames, if_neg (requestName_ne_responseName hnamed hnamed).symm, hresponse]
  have hchanged : NamesInv store (w.calls.erase (.creating instrument)) w.handles := by
    refine h.names.change hcall trivial (List.Subset.refl _)
      (fun c hc => h.names.underWay c (List.mem_of_mem_erase hc)) hwell (fun name hname _ => ?_) (fun q hq => ?_)
      fun q q' _ hq' => ?_
    · rw [hnames]
      exact if_neg hname
    · exact absurd (hrequest.symm.trans hq) (by simp)
    · exact absurd (hfree.symm.trans hq') (by simp)
  have hunder : UnderWay store w.handles (.created instrument w.store.next) := by
    refine ⟨?_, hfree, fun g hg _ => ⟨(h.handles.below g hg).1.ne, (h.handles.below g hg).2.ne⟩⟩
    rw [hnames, if_pos rfl]
  exact h.replaceCalls hcontents (hnext ▸ Nat.le_succ _) (hchanged.goOn h.names hcall trivial _ rfl hunder)

/-- The response queue is created as well, and the server has its handle. -/
theorem created (h : ChannelInv w) {instrument : ByteString} {q : Nat} (hcall : QueueCall.created instrument q ∈ w.calls)
    {store : QueueStore} {q' : Nat} (hcreate : w.store.create (responseName instrument) = some (store, q')) :
    ChannelInv { w with
      store
      calls := w.calls.erase (.created instrument q)
      handles := w.handles ++ [⟨instrument, q, q', true⟩] } := by
  obtain ⟨hrequest, hresponse, hfresh⟩ := h.names.underWay _ hcall
  have hnamed : 0 ∉ instrument := h.names.named _ hcall
  have hbelow := h.names.wellNamed.below _ _ hrequest
  have hwell := h.names.wellNamed.create hcreate
  obtain ⟨rfl, hnext, hcontents, hnames⟩ := NamedQueues.create_eq_some hcreate
  -- no other queue that is being created is one of the new pair
  have hothers : ∀ c ∈ w.calls.erase (.created instrument q),
      UnderWay w.store (w.handles ++ [⟨instrument, q, w.store.next, true⟩]) c := by
    intro c hc
    have hunder := h.names.underWay c (List.mem_of_mem_erase hc)
    refine hunder.more fun other p heq _ => ?_
    subst heq
    have hp := h.names.wellNamed.below _ _ hunder.1
    refine ⟨?_, hp.ne'⟩
    rintro rfl
    have hother : 0 ∉ other := h.names.named _ (List.mem_of_mem_erase hc)
    have hsame : other = instrument := requestName_inj hother hnamed (h.names.wellNamed.unique _ _ _ hunder.1 hrequest)
    obtain ⟨p, hopened, -⟩ := h.names.opened_of_same hcall trivial hc hsame
    simp at hopened
  refine h.replace hcontents ?_ (hnext ▸ h.handles.addServer hbelow hfresh)
  have hkept : store.names (requestName instrument) = some q := by
    rw [hnames, if_neg (requestName_ne_responseName hnamed hnamed), hrequest]
  refine h.names.change hcall trivial (List.subset_append_left _ _) hothers hwell (fun name _ hname => ?_)
    (fun p hp => ?_) fun p p' hp hp' => ?_
  · rw [hnames]
    exact if_neg hname
  · exact hkept.trans (hrequest.symm.trans hp)
  · have hnew : store.names (responseName instrument) = some w.store.next := by
      rw [hnames, if_pos rfl]
    exact ⟨_, List.mem_append_right _ (List.mem_singleton.mpr rfl), rfl, rfl, Option.some.inj (hkept.symm.trans hp),
      Option.some.inj (hnew.symm.trans hp')⟩

/-- The worker has found both names: they are of one pair. -/
theorem opened (h : ChannelInv w) {instrument : ByteString} {q q' : Nat} (hcall : QueueCall.opened instrument q ∈ w.calls)
    (hresponse : w.store.names (responseName instrument) = some q') :
    ChannelInv { w with
      calls := w.calls.erase (.opened instrument q)
      handles := w.handles ++ [⟨instrument, q, q', false⟩] } := by
  have hrequest : w.store.names (requestName instrument) = some q := h.names.underWay _ hcall
  have hpair := h.names.opens instrument q q' (h.names.named _ hcall) hrequest hresponse
  refine h.replace rfl ((h.names.drop _).more fun c hc => ?_) (h.handles.addWorker rfl hpair)
  refine (h.names.underWay c (List.mem_of_mem_erase hc)).more fun other p _ hserver => ?_
  simp at hserver

/-- A call has thrown. -/
theorem drop (h : ChannelInv w) (call : QueueCall) : ChannelInv { w with calls := w.calls.erase call } :=
  h.replaceCalls rfl le_rfl (h.names.drop call)

theorem go (h : ChannelInv w) {call : QueueCall} (hcall : call ∈ w.calls) (granted : Bool) :
    ChannelInv (w.go call granted) := by
  rw [QueueWorld.go]
  cases call with
  | cleaning instrument => simpa [QueueCall.go] using h.cleaning hcall
  | removing instrument => simpa [QueueCall.go] using h.removing hcall
  | creating instrument =>
      rw [QueueCall.go]
      cases hcreate : if granted then w.store.create (requestName instrument) else none with
      | none => simpa using h.drop (.creating instrument)
      | some result => simpa using h.creating hcall (Option.ite_none_right_eq_some.mp hcreate).2
  | created instrument q =>
      rw [QueueCall.go]
      cases hcreate : if granted then w.store.create (responseName instrument) else none with
      | none => simpa using h.drop (.created instrument q)
      | some result => simpa using h.created hcall (Option.ite_none_right_eq_some.mp hcreate).2
  | opened instrument q =>
      rw [QueueCall.go]
      cases hresponse : w.store.names (responseName instrument) with
      | none => simpa using h.drop (.opened instrument q)
      | some q' => simpa using h.opened hcall hresponse

theorem map_snd_update (log : Nat → List (Nat × IpcMessage)) (q : Nat) (e : Nat × IpcMessage) :
    (fun other => (Function.update log q (log q ++ [e]) other).map Prod.snd) =
      Function.update (fun other => (log other).map Prod.snd) q ((log q).map Prod.snd ++ [e.2]) := by
  funext other
  by_cases hother : other = q
  · subst hother
    simp
  · simp [hother]

/-- One more entry of a handle that belongs to the queue. -/
theorem forall_mem_update {log : Nat → List (Nat × IpcMessage)} {handles : List QueueHandle} {side : QueueHandle → Nat}
    (hlog : ∀ q, ∀ e ∈ log q, ∃ h, handles[e.1]? = some h ∧ side h = q) {i : Nat} {h : QueueHandle}
    (hi : handles[i]? = some h) (msg : IpcMessage) :
    ∀ q, ∀ e ∈ Function.update log (side h) (log (side h) ++ [(i, msg)]) q, ∃ g, handles[e.1]? = some g ∧ side g = q := by
  intro q e he
  by_cases hq : q = side h
  · subst hq
    rw [Function.update_self] at he
    rcases List.mem_append.mp he with he | he
    · exact hlog _ e he
    · rw [List.mem_singleton.mp he]
      exact ⟨h, hi, rfl⟩
  · rw [Function.update_of_ne hq] at he
    exact hlog q e he

theorem send (h : ChannelInv w) {i : Nat} {g : QueueHandle} (hi : w.handles[i]? = some g) (msg : IpcMessage) :
    ChannelInv (w.send i g msg).1 := by
  rw [QueueWorld.send]
  cases hsend : w.store.send maxMessages g.outgoing msg with
  | none => exact h
  | some store =>
      obtain ⟨hbalanced, hnames, hnext⟩ := h.balanced.send hsend
      refine ⟨h.names.of_names hnames hnext, hnext ▸ h.handles, ?_, forall_mem_update h.senders hi msg, h.receivers⟩
      rw [map_snd_update]
      exact hbalanced

theorem receive (h : ChannelInv w) {i : Nat} {g : QueueHandle} (hi : w.handles[i]? = some g) :
    ChannelInv (w.receive i g).1 := by
  rw [QueueWorld.receive]
  cases hreceive : w.store.receive g.incoming with
  | none => exact h
  | some result =>
      obtain ⟨msg, store⟩ := result
      obtain ⟨hbalanced, hnames, hnext⟩ := h.balanced.receive hreceive
      refine ⟨h.names.of_names hnames hnext, hnext ▸ h.handles, ?_, h.senders, forall_mem_update h.receivers hi msg⟩
      rw [map_snd_update]
      exact hbalanced

theorem step (h : ChannelInv w) {label : QueueLabel} (horderly : Orderly w label) {w' : QueueWorld}
    (hnext : w.step label = some w') : ChannelInv w' := by
  obtain ⟨hnamed, hundisturbed⟩ := horderly
  cases label with
  | createServerQueue instrument =>
      obtain rfl := Option.some.inj hnext
      exact h.createServerQueue hnamed hundisturbed
  | createWorkerQueue instrument =>
      obtain rfl := Option.some.inj hnext
      exact h.createWorkerQueue hnamed
  | cleanup instrument =>
      obtain rfl := Option.some.inj hnext
      exact h.cleanup hnamed hundisturbed
  | go call granted =>
      obtain ⟨hcall, hgo⟩ := Option.ite_none_right_eq_some.mp hnext
      obtain rfl := Option.some.inj hgo
      exact h.go hcall granted
  | send i msg =>
      obtain ⟨g, hi, rfl⟩ := Option.map_eq_some_iff.mp hnext
      exact h.send hi msg
  | receive i =>
      obtain ⟨g, hi, rfl⟩ := Option.map_eq_some_iff.mp hnext
      exact h.receive hi

end ChannelInv

theorem channelInv_of_reachable {w : QueueWorld} (hreach : ReachableWhile system Orderly w) : ChannelInv w :=
  hreach.invariant .init fun _ _ _ hinv horderly hnext => hinv.step horderly hnext

/-- What goes through the pair of queues of a handle of the server: nothing is lost, doubled or overtaken, nothing comes from or goes to another handle of a server, and the other side are workers for its instrument with the same pair. -/
structure Channel (w : QueueWorld) (i : Nat) (h : QueueHandle) : Prop where
  requests : (w.sent h.request).map Prod.snd = (w.received h.request).map Prod.snd ++ w.store.contents h.request
  responses : (w.sent h.response).map Prod.snd = (w.received h.response).map Prod.snd ++ w.store.contents h.response
  bounded : (w.store.contents h.request).length ≤ maxMessages ∧ (w.store.contents h.response).length ≤ maxMessages
  sender : ∀ e ∈ w.sent h.request, e.1 = i
  receiver : ∀ e ∈ w.received h.response, e.1 = i
  workers : ∀ e ∈ w.received h.request ++ w.sent h.response, ∃ g, w.handles[e.1]? = some g ∧ g.isServer = false ∧
    g.instrument = h.instrument ∧ g.request = h.request ∧ g.response = h.response

theorem ChannelInv.channel {w : QueueWorld} (hinv : ChannelInv w) {i : Nat} {h : QueueHandle}
    (hi : w.handles[i]? = some h) (hserver : h.isServer = true) : Channel w i h := by
  have hh := List.mem_of_getElem? hi
  /- a handle with one of the queues on the other side than the server is a worker with the pair -/
  have hworker : ∀ g ∈ w.handles, g.isServer = false → g.request = h.request ∨ g.response = h.response →
      g.instrument = h.instrument ∧ g.request = h.request ∧ g.response = h.response := by
    intro g hg _ hsame
    obtain ⟨k, hk, hks, hinstrument, hrequest, hresponse⟩ := hinv.handles.attached g hg
    obtain ⟨j, hj⟩ := List.mem_iff_getElem?.mp hk
    rw [← hrequest, ← hresponse] at hsame
    obtain rfl := hinv.handles.alone j i k h hj hi hks hserver hsame
    obtain rfl := Option.some.inj (hj.symm.trans hi)
    exact ⟨hinstrument.symm, hrequest.symm, hresponse.symm⟩
  refine ⟨hinv.balanced.inOrder _, hinv.balanced.inOrder _, ⟨hinv.balanced.bounded _, hinv.balanced.bounded _⟩,
    fun e he => ?_, fun e he => ?_, fun e he => ?_⟩
  · obtain ⟨g, hg, hout⟩ := hinv.senders _ e he
    rw [QueueHandle.outgoing] at hout
    split at hout
    · exact hinv.handles.alone e.1 i g h hg hi ‹_› hserver (Or.inl hout)
    · exact absurd hout.symm (hinv.handles.apart h hh g (List.mem_of_getElem? hg))
  · obtain ⟨g, hg, hin⟩ := hinv.receivers _ e he
    rw [QueueHandle.incoming] at hin
    split at hin
    · exact hinv.handles.alone e.1 i g h hg hi ‹_› hserver (Or.inr hin)
    · exact absurd hin (hinv.handles.apart g (List.mem_of_getElem? hg) h hh)
  · rcases List.mem_append.mp he with he | he
    · obtain ⟨g, hg, hin⟩ := hinv.receivers _ e he
      rw [QueueHandle.incoming] at hin
      split at hin
      · exact absurd hin.symm (hinv.handles.apart h hh g (List.mem_of_getElem? hg))
      · have hclient : g.isServer = false := by simpa using ‹¬ g.isServer = true›
        exact ⟨g, hg, hclient, hworker g (List.mem_of_getElem? hg) hclient (Or.inl hin)⟩
    · obtain ⟨g, hg, hout⟩ := hinv.senders _ e he
      rw [QueueHandle.outgoing] at hout
      split at hout
      · exact absurd hout (hinv.handles.apart g (List.mem_of_getElem? hg) h hh)
      · have hclient : g.isServer = false := by simpa using ‹¬ g.isServer = true›
        exact ⟨g, hg, hclient, hworker g (List.mem_of_getElem? hg) hclient (Or.inr hout)⟩

end QueueWorld

open QueueWorld in
/-- Whatever the processes do with the queues of all instruments, as long as nobody begins to create or remove the queues of an instrument under another call for them: each pair that the server has created is a channel of its own, first in, first out, between this handle and the workers of its instrument that opened this pair. -/
theorem queues_are_channels {w : QueueWorld} (hreach : ReachableWhile system Orderly w) {i : Nat} {h : QueueHandle}
    (hi : w.handles[i]? = some h) (hserver : h.isServer = true) : Channel w i h :=
  (channelInv_of_reachable hreach).channel hi hserver

namespace QueueWorld

def ping (id : Nat) : IpcMessage := { type := .command, id := id }

/-- The server creates the next pair, with the request queue `q`, from beginning to end. -/
def serverCreates (instrument : ByteString) (q : Nat) : List QueueLabel :=
  [.createServerQueue instrument, .go (.removing instrument) true, .go (.creating instrument) true,
    .go (.created instrument q) true]

/-- A worker opens the pair with the request queue `q`. -/
def workerOpens (instrument : ByteString) (q : Nat) : List QueueLabel :=
  [.createWorkerQueue instrument, .go (.opened instrument q) true]

/-- The instrument is restarted while a worker still has the old pair; the worker takes the old command, and the new worker the new one. -/
def restartRun : List QueueLabel :=
  serverCreates (bytes "DMM") 0 ++ workerOpens (bytes "DMM") 0 ++ [.send 0 (ping 1)] ++
    serverCreates (bytes "DMM") 2 ++ workerOpens (bytes "DMM") 2 ++ [.send 2 (ping 2), .receive 3, .receive 1]

end QueueWorld

open QueueWorld in
theorem queues_are_channels_restartRun :
    ∃ w, ReachableWhile system Orderly w ∧ w.received 0 = [(1, ping 1)] ∧ w.received 2 = [(3, ping 2)] ∧
      Channel w 2 ⟨bytes "DMM", 2, 3, true⟩ := by
  obtain ⟨w, hreach, hview⟩ := @ReachableWhile.of_any _ _ system Orderly _ restartRun
    (fun w => decide (w.received 0 = [(1, ping 1)] ∧ w.received 2 = [(3, ping 2)] ∧
      w.handles[2]? = some (⟨bytes "DMM", 2, 3, true⟩ : QueueHandle))) (by decide +kernel)
  obtain ⟨hold, hnew, hi⟩ := of_decide_eq_true hview
  exact ⟨w, hreach, hold, hnew, queues_are_channels hreach hi rfl⟩

namespace QueueWorld

/-- The instrument is restarted between the two names that a worker opens. -/
def mixedRun : List QueueLabel :=
  serverCreates (bytes "DMM") 0 ++ [.createWorkerQueue (bytes "DMM")] ++ serverCreates (bytes "DMM") 2 ++
    [.go (.opened (bytes "DMM") 0) true, .send 2 (ping 1)]

end QueueWorld

open QueueWorld in
/-- Without the condition the pairs mix: the worker answers into the new pair and is not one of its workers. -/
theorem not_channel_mixedRun :
    ∃ w, ReachableWhile system (fun _ => NamedByText) w ∧ w.handles[1]? = some ⟨bytes "DMM", 2, 3, true⟩ ∧
      ¬ Channel w 1 ⟨bytes "DMM", 2, 3, true⟩ := by
  obtain ⟨w, hreach, hview⟩ := @ReachableWhile.of_any _ _ system (fun _ => NamedByText) _ mixedRun
    (fun w => decide (w.handles = [⟨bytes "DMM", 0, 1, true⟩, ⟨bytes "DMM", 2, 3, true⟩, ⟨bytes "DMM", 0, 3, false⟩] ∧
      w.sent 3 = [(2, ping 1)])) (by decide +kernel)
  obtain ⟨hhandles, hsent⟩ := of_decide_eq_true hview
  refine ⟨w, hreach, by rw [hhandles]; rfl, fun hchannel => ?_⟩
  obtain ⟨g, hg, -, -, hrequest, -⟩ := hchannel.workers (2, ping 1)
    (List.mem_append_right _ (hsent ▸ List.mem_singleton.mpr rfl))
  rw [hhandles] at hg
  obtain rfl := Option.some.inj hg
  exact absurd hrequest (by decide)

end InstrumentServer.Ipc
