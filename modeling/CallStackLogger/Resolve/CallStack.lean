import CallStackLogger.Core.CBuffer
import CallStackLogger.Resolve.Resolver
import Mathlib.Data.Nat.Find

/-!
# The call stack on demand

`get_call_stack` of `src/callStack.cpp`. The return addresses of the stack are captured into a vector that is
doubled while `backtrace` fills it; each frame is then resolved together with the place it was called from.
`backtrace`, the resolver and the clock are parameters. The guard against re-entrance, which the hooks alone
read, is left out.
-/

namespace CallStackLogger

open Checked

/-- What `get_call_stack` returns for a frame. -/
structure ResolvedFrame where
  timestamp : Text
  calleeAddress : Option Addr
  calleeFunctionName : Text
  callerFilename : Text
  callerLineNumber : Option Nat
deriving DecidableEq, Repr

/-- What a call of `backtrace` leaves in the vector, and what it returns. -/
structure Capture where
  stack : List Addr
  num : Int
deriving DecidableEq, Repr

/-- What `get_call_stack` calls: `backtrace` on the stack of its thread, `resolve_no_unwind`, and
`pretty_time`. The last two go through states `σ`. -/
structure CallStackEnv (σ : Type) where
  backtrace : List Addr → Int → Capture
  resolveNoUnwind : ResolveCall → σ → Resolved × σ
  prettyTime : σ → Text × σ

/-- `inside_call_instruction`: one byte back, as a 64-bit address. -/
def insideCallInstruction (returnAddress : Addr) : Addr := (returnAddress + (2 ^ 64 - 1)) % 2 ^ 64

/-- `INITIAL_FRAMES`. -/
def initialFrames : Nat := 1000

/-- A `ResolvedFrameView` nothing has been written to. -/
def ResolvedFrameView.unwritten : ResolvedFrameView := ⟨none, [], [], [], none, none⟩

namespace CallStackEnv

variable {σ : Type} (env : CallStackEnv σ)

def ownFrame (view : ResolvedFrameView) (s : σ) : ResolvedFrame × σ :=
  let now := env.prettyTime s
  ({ timestamp := now.1
     calleeAddress := view.calleeAddress
     calleeFunctionName := view.calleeFunctionName
     callerFilename := view.callerFilename
     callerLineNumber := view.callerLineNumber }, now.2)

/-- The frame is named after the byte inside its call, and reported with what `backtrace` reported. -/
def resolvePhysicalFrame (returnAddress callerAddress : Addr) (s : σ) : Option ResolvedFrame × σ :=
  let inside := insideCallInstruction returnAddress
  match env.resolveNoUnwind ⟨inside, callerAddress, .unwritten, .outermostFunction⟩ s with
  | ((false, _), s)   => (none, s)
  | ((true, view), s) =>
    let address := if view.calleeAddress.isSome then some returnAddress else view.calleeAddress
    let frame := env.ownFrame { view with calleeAddress := address } s
    (some frame.1, frame.2)

/-- The loop that doubles the vector while `backtrace` fills it. -/
def growthLoop : Nat → Capture → Except Fault Capture
  | 0, _        => .error .unending
  | fuel + 1, c =>
    if toSize c.num = c.stack.length then
      let stack := resize 0 c.stack (c.stack.length * 2)
      -- `int(stack.size())` wraps around from 2 ^ 31 on
      growthLoop fuel (env.backtrace stack (toInt stack.length))
    else .ok c

/-- The address a frame is said to be called from. -/
def callerOf (stack : List Addr) (n i : Nat) : Except Fault Addr := do
  let caller ← load stack i
  if i + 1 < n then
    let next ← load stack (i + 1)
    return insideCallInstruction next
  else return caller

/-- The loop over the frames from `i` on. -/
def resolveLoop (stack : List Addr) (n : Nat) :
    Nat → Nat → List (Option ResolvedFrame) → σ → Except Fault (List (Option ResolvedFrame) × σ)
  | 0, _, res, s          => .ok (res, s)
  | rounds + 1, i, res, s => do
    let caller ← callerOf stack n i
    let address ← load stack i
    let frame := env.resolvePhysicalFrame address caller s
    resolveLoop stack n rounds (i + 1) (res ++ [frame.1]) frame.2

/-- `get_call_stack`, with the text of the `runtime_error` it may throw. -/
def getCallStack (fuel : Nat) (s : σ) : Except Fault (Except Text (List (Option ResolvedFrame) × σ)) :=
  let first := env.backtrace (List.replicate initialFrames 0) (toInt initialFrames)
  if first.num ≤ 0 then .ok (.error "Callstack could not be built".toList)
  else do
    let c ← env.growthLoop fuel first
    let n := toSize c.num
    let result ← env.resolveLoop (resize 0 c.stack n) n (n - 1) 1 [] s
    return .ok result

end CallStackEnv

/-! ### What the stack is -/

/-- The vector once `backtrace` has put into it as many of the frames as it was asked for. -/
def captured (frames buffer : List Addr) (size : Nat) : Capture :=
  ⟨filled (frames.take size) buffer, (frames.take size).length⟩

/-- `backtrace` puts the first return addresses of the stack into a vector with room for them, as many as it
is asked for, and returns their number. A size that is not positive asks for none. -/
def Backtraces (frames : List Addr) (backtrace : List Addr → Int → Capture) : Prop :=
  ∀ (buffer : List Addr) (size : Int), size.toNat ≤ buffer.length →
    backtrace buffer size = captured frames buffer size.toNat

/-- `backtrace` on the given stack, with a resolver that has no cache. -/
def CallStackEnv.plain {σ : Type} (frames : List Addr) (a : ObjectAnswers) (b : Build)
    (prettyTime : σ → Text × σ) : CallStackEnv σ where
  backtrace buffer size := captured frames buffer size.toNat
  resolveNoUnwind c s := (resolveUncached a b c, s)
  prettyTime := prettyTime

lemma backtraces_plain {σ : Type} (frames : List Addr) (a : ObjectAnswers) (b : Build)
    (prettyTime : σ → Text × σ) : Backtraces frames (CallStackEnv.plain frames a b prettyTime).backtrace :=
  fun _ _ _ => rfl

/-- The ancestors of `get_call_stack`, innermost first, each with one byte before the return address of the
frame behind it; the outermost one with its own return address. -/
structure PairsFrames (frames : List Addr) (sites : List (Addr × Addr)) : Prop where
  length : sites.length = frames.length - 1
  inner : ∀ i address next, frames[i + 1]? = some address → frames[i + 2]? = some next →
    sites[i]? = some (address, insideCallInstruction next)
  outermost : ∀ i address, frames.length = i + 2 → frames[i + 1]? = some address →
    sites[i]? = some (address, address)

namespace CallStackEnv

variable {σ : Type} (env : CallStackEnv σ)

/-- The frames resolved one after the other. -/
def resolveAll : List (Addr × Addr) → σ → List (Option ResolvedFrame) × σ
  | [], s            => ([], s)
  | site :: sites, s =>
    let frame := env.resolvePhysicalFrame site.1 site.2 s
    let behind := resolveAll sites frame.2
    (frame.1 :: behind.1, behind.2)

/-- There is an entry for every ancestor, resolved from its own pair. -/
def LosesNoFrame (frames : List Addr) (fuel : Nat) (s : σ) : Prop :=
  ∃ sites entries s', PairsFrames frames sites ∧ env.getCallStack fuel s = .ok (.ok (entries, s')) ∧
    entries.length = frames.length - 1 ∧ env.resolveAll sites s = (entries, s')

end CallStackEnv

/-! ### The growth loop -/

section Growth

variable {σ : Type} {env : CallStackEnv σ} {frames buffer : List Addr} {size : Nat}

lemma length_captured (frames : List Addr) (h : size ≤ buffer.length) :
    (captured frames buffer size).stack.length = buffer.length :=
  length_filled ((List.length_take_le size frames).trans h)

lemma toSize_captured (h : size < 2 ^ 64) :
    toSize (captured frames buffer size).num = (frames.take size).length :=
  toSize_natCast ((List.length_take_le size frames).trans_lt h)

/-- A size an `int` can hold is the one `backtrace` gets. -/
lemma backtrace_toInt (hbacktrace : Backtraces frames env.backtrace) (hsize : size < 2 ^ 31)
    (hroom : size ≤ buffer.length) : env.backtrace buffer (toInt size) = captured frames buffer size := by
  rw [toInt_of_lt hsize]
  exact hbacktrace buffer size hroom

/-- The loop stops when the vector is not full. -/
lemma growthLoop_of_lt (hlt : frames.length < size) (hsize : size < 2 ^ 64) (hbuffer : buffer.length = size)
    (fuel : Nat) :
    env.growthLoop (fuel + 1) (captured frames buffer size) = .ok (captured frames buffer size) := by
  rw [CallStackEnv.growthLoop, toSize_captured hsize, length_captured frames hbuffer.ge, hbuffer,
    List.take_of_length_le hlt.le, if_neg hlt.ne]

/-- The loop goes on when it is. -/
lemma growthLoop_of_le (env : CallStackEnv σ) (hle : size ≤ frames.length) (hsize : size < 2 ^ 64)
    (hbuffer : buffer.length = size) (fuel : Nat) :
    ∃ buffer', buffer'.length = size * 2 ∧
      env.growthLoop (fuel + 1) (captured frames buffer size) =
        env.growthLoop fuel (env.backtrace buffer' (toInt (size * 2))) := by
  have hlength := length_captured frames hbuffer.ge
  refine ⟨resize 0 (captured frames buffer size).stack (size * 2), length_resize _ _ _, ?_⟩
  rw [CallStackEnv.growthLoop, toSize_captured hsize, hlength, hbuffer, List.length_take_of_le hle, if_pos rfl]
  simp only [length_resize]

/-- How large the vector is after so many doublings. -/
def doubled (k : Nat) : Nat := initialFrames * 2 ^ k

lemma doubled_succ (k : Nat) : doubled (k + 1) = doubled k * 2 := by
  rw [doubled, doubled, pow_succ, Nat.mul_assoc]

lemma doubled_le {j k : Nat} (h : j ≤ k) : doubled j ≤ doubled k :=
  Nat.mul_le_mul_left initialFrames (Nat.pow_le_pow_right (by decide) h)

/-- The last size an `int` can hold. -/
lemma doubled_lt {k : Nat} (h : k ≤ 21) : doubled k < 2 ^ 31 := (doubled_le h).trans_lt (by decide)

/-- As long as the stack fills the vector, the loop reaches the next size. -/
lemma growthLoop_doubled (hbacktrace : Backtraces frames env.backtrace) {k : Nat} (hk : k ≤ 21)
    (hfull : ∀ j < k, doubled j ≤ frames.length) (hbuffer : buffer.length = initialFrames) (fuel : Nat) :
    ∃ buffer', buffer'.length = doubled k ∧
      env.growthLoop (fuel + k) (captured frames buffer initialFrames) =
        env.growthLoop fuel (captured frames buffer' (doubled k)) := by
  induction k generalizing fuel with
  | zero => exact ⟨buffer, hbuffer, rfl⟩
  | succ k ih =>
    have hlt : doubled k < 2 ^ 64 := (doubled_lt (by omega)).trans (by decide)
    obtain ⟨buffer₁, hbuffer₁, hreach⟩ := ih (by omega) (fun j hj => hfull j (by omega)) (fuel + 1)
    obtain ⟨buffer₂, hbuffer₂, hstep⟩ := growthLoop_of_le env (hfull k (by omega)) hlt hbuffer₁ fuel
    refine ⟨buffer₂, hbuffer₂.trans (doubled_succ k).symm, ?_⟩
    rw [← Nat.add_assoc, Nat.add_right_comm, hreach, hstep, ← doubled_succ]
    rw [backtrace_toInt hbacktrace (doubled_lt hk) (hbuffer₂.trans (doubled_succ k).symm).ge]

/-- A stack that one of these sizes has room for is captured whole. -/
lemma growthLoop_whole (hbacktrace : Backtraces frames env.backtrace) (hdepth : frames.length < doubled 21)
    (hbuffer : buffer.length = initialFrames) {fuel : Nat} (hfuel : 22 ≤ fuel) :
    ∃ c, env.growthLoop fuel (captured frames buffer initialFrames) = .ok c ∧
      toSize c.num = frames.length ∧ resize 0 c.stack frames.length = frames := by
  have hexists : ∃ k, frames.length < doubled k := ⟨21, hdepth⟩
  -- the first size that is larger than the stack
  obtain ⟨k, hk⟩ : ∃ k, k = Nat.find hexists := ⟨_, rfl⟩
  have hlarger : frames.length < doubled k := hk ▸ Nat.find_spec hexists
  have hlast : k ≤ 21 := hk ▸ Nat.find_min' hexists hdepth
  have hfull : ∀ j < k, doubled j ≤ frames.length := by
    intro j hj
    rw [hk] at hj
    exact Nat.not_lt.mp (Nat.find_min hexists hj)
  have hlt : doubled k < 2 ^ 64 := (doubled_lt hlast).trans (by decide)
  obtain ⟨rest, rfl⟩ := Nat.exists_eq_add_of_le hfuel
  obtain ⟨buffer', hbuffer', hreach⟩ := growthLoop_doubled hbacktrace hlast hfull hbuffer (21 - k + rest + 1)
  have hrounds : 22 + rest = 21 - k + rest + 1 + k := by omega
  have htake : frames.take (doubled k) = frames := List.take_of_length_le hlarger.le
  refine ⟨captured frames buffer' (doubled k), ?_, ?_, ?_⟩
  · rw [hrounds, hreach, growthLoop_of_lt hlarger hlt hbuffer']
  · rw [toSize_captured hlt, htake]
  · rw [captured, htake]
    exact resize_filled 0 (hlarger.le.trans hbuffer'.ge)

/-- A deeper stack fills the last of these vectors, and `backtrace` is asked for a negative number of its
frames next. -/
lemma growthLoop_nothing (hbacktrace : Backtraces frames env.backtrace) (hdepth : doubled 21 ≤ frames.length)
    (hbuffer : buffer.length = initialFrames) {fuel : Nat} (hfuel : 23 ≤ fuel) :
    ∃ c, env.growthLoop fuel (captured frames buffer initialFrames) = .ok c ∧ toSize c.num = 0 := by
  have hfull : ∀ j < 21, doubled j ≤ frames.length := fun j hj => (doubled_le hj.le).trans hdepth
  have hlt : doubled 21 < 2 ^ 64 := (doubled_lt (Nat.le_refl 21)).trans (by decide)
  obtain ⟨rest, rfl⟩ := Nat.exists_eq_add_of_le' hfuel
  obtain ⟨buffer₁, hbuffer₁, hreach⟩ :=
    growthLoop_doubled hbacktrace (Nat.le_refl 21) hfull hbuffer (rest + 1 + 1)
  obtain ⟨buffer₂, hbuffer₂, hstep⟩ := growthLoop_of_le env hdepth hlt hbuffer₁ (rest + 1)
  have hnegative : (toInt (doubled 21 * 2)).toNat = 0 := by decide
  have hnothing : env.backtrace buffer₂ (toInt (doubled 21 * 2)) = captured frames buffer₂ 0 := by
    have hroom : (toInt (doubled 21 * 2)).toNat ≤ buffer₂.length := by
      rw [hnegative]
      exact Nat.zero_le _
    rw [hbacktrace buffer₂ _ hroom, hnegative]
  have hzero : toSize (captured frames buffer₂ 0).num = 0 := by
    have hpos : (0 : Nat) < 2 ^ 64 := by decide
    rw [toSize_captured hpos, List.take_zero, List.length_nil]
  have hne : ¬ 0 = doubled 21 * 2 := by decide
  refine ⟨captured frames buffer₂ 0, ?_, hzero⟩
  rw [hreach, hstep, hnothing, CallStackEnv.growthLoop, hzero, length_captured frames (Nat.zero_le _), hbuffer₂,
    if_neg hne]

end Growth

/-! ### The frames -/

section Frames

variable {σ : Type} {env : CallStackEnv σ} {frames stack : List Addr} {i n : Nat}

/-- The call site a frame is paired with, given the frames behind it. -/
def siteOf (address : Addr) (next : Option Addr) : Addr := (next.map insideCallInstruction).getD address

@[simp] lemma siteOf_none (address : Addr) : siteOf address none = address := rfl

@[simp] lemma siteOf_some (address next : Addr) : siteOf address (some next) = insideCallInstruction next := by
  rw [siteOf, Option.map_some, Option.getD_some]

/-- The frames with their call sites. -/
def callSites : List Addr → List (Addr × Addr)
  | []                => []
  | address :: behind => (address, siteOf address behind.head?) :: callSites behind

lemma length_callSites (frames : List Addr) : (callSites frames).length = frames.length := by
  induction frames with
  | nil => rfl
  | cons address behind ih => rw [callSites, List.length_cons, List.length_cons, ih]

lemma getElem?_callSites (frames : List Addr) (i : Nat) :
    (callSites frames)[i]? = frames[i]?.map fun address => (address, siteOf address frames[i + 1]?) := by
  induction frames generalizing i with
  | nil => rfl
  | cons address behind ih =>
    cases i with
    | zero => simp [callSites, List.head?_eq_getElem?]
    | succ i => simpa [callSites] using ih i

lemma pairsFrames_callSites (frames : List Addr) : PairsFrames frames (callSites frames.tail) where
  length := by
    rw [length_callSites, List.length_tail]
  inner i address next haddress hnext := by
    rw [getElem?_callSites, List.getElem?_tail, List.getElem?_tail, haddress, hnext, Option.map_some, siteOf_some]
  outermost i address hlength haddress := by
    have hnone : frames[i + 2]? = none := List.getElem?_eq_none hlength.le
    rw [getElem?_callSites, List.getElem?_tail, List.getElem?_tail, haddress, hnone, Option.map_some, siteOf_none]

lemma callerOf_eq {address : Addr} (haddress : stack[i]? = some address) :
    CallStackEnv.callerOf stack stack.length i = .ok (siteOf address stack[i + 1]?) := by
  rw [CallStackEnv.callerOf, load_of_getElem? haddress]
  by_cases hlast : i + 1 < stack.length
  · have hnext : stack[i + 1]? = some stack[i + 1] := List.getElem?_eq_getElem hlast
    simp only [Except.bind, bind, pure, Except.pure, if_pos hlast, load_of_getElem? hnext, hnext, siteOf_some]
  · have hnone : stack[i + 1]? = none := List.getElem?_eq_none (Nat.not_lt.mp hlast)
    simp only [Except.bind, bind, pure, Except.pure, if_neg hlast, hnone, siteOf_none]

/-- The loop resolves every frame from `i` on with its call site. -/
lemma resolveLoop_eq (env : CallStackEnv σ) {rounds : Nat} (hrounds : stack.length - i = rounds)
    (res : List (Option ResolvedFrame)) (s : σ) :
    env.resolveLoop stack stack.length rounds i res s =
      .ok (res ++ (env.resolveAll (callSites (stack.drop i)) s).1,
        (env.resolveAll (callSites (stack.drop i)) s).2) := by
  induction rounds generalizing i res s with
  | zero =>
    have hdrop : stack.drop i = [] := List.drop_of_length_le (Nat.le_of_sub_eq_zero hrounds)
    rw [hdrop]
    simp [CallStackEnv.resolveLoop, callSites, CallStackEnv.resolveAll]
  | succ rounds ih =>
    have hi : i < stack.length := by omega
    have haddress : stack[i]? = some stack[i] := List.getElem?_eq_getElem hi
    rw [CallStackEnv.resolveLoop, callerOf_eq haddress, load_of_getElem? haddress,
      List.drop_eq_getElem_cons hi, callSites, List.head?_drop]
    simp only [Except.bind, bind]
    rw [ih (by omega)]
    simp [CallStackEnv.resolveAll]

lemma length_resolveAll (sites : List (Addr × Addr)) (s : σ) :
    (env.resolveAll sites s).1.length = sites.length := by
  induction sites generalizing s with
  | nil => rfl
  | cons site sites ih => rw [CallStackEnv.resolveAll, List.length_cons, List.length_cons, ih]

end Frames

/-! ### The whole call -/

section Whole

variable {σ : Type} {env : CallStackEnv σ} {frames : List Addr} {c : Capture} {fuel : Nat} {s : σ}

/-- The call, once the loop has ended. -/
lemma getCallStack_eq (hbacktrace : Backtraces frames env.backtrace) (hdepth : 1 ≤ frames.length) {n : Nat}
    (hloop : env.growthLoop fuel (captured frames (List.replicate initialFrames 0) initialFrames) = .ok c)
    (hn : toSize c.num = n) (s : σ) :
    env.getCallStack fuel s = .ok (.ok (env.resolveAll (callSites (resize 0 c.stack n).tail) s)) := by
  have hroom : initialFrames ≤ (List.replicate initialFrames (0 : Addr)).length := by
    rw [List.length_replicate]
  have hfirst := backtrace_toInt hbacktrace (by decide) hroom
  have hsome : ¬ (captured frames (List.replicate initialFrames 0) initialFrames).num ≤ 0 := by
    have hpos : 0 < (frames.take initialFrames).length := by
      rw [List.length_take]
      exact Nat.lt_min.mpr ⟨by decide, hdepth⟩
    simp only [captured]
    omega
  have hlength := length_resize 0 c.stack n
  rw [CallStackEnv.getCallStack, hfirst]
  simp only [if_neg hsome, hloop, Except.bind, bind, hn]
  have hresolve := resolveLoop_eq env (congrArg (· - 1) hlength) [] s
  rw [hlength, List.nil_append, List.drop_one] at hresolve
  rw [hresolve]
  rfl

/-- The call on a stack that is captured whole. -/
lemma getCallStack_of_lt (hbacktrace : Backtraces frames env.backtrace) (hdepth : 1 ≤ frames.length)
    (hfuel : 23 ≤ fuel) (hlt : frames.length < doubled 21) (s : σ) :
    env.getCallStack fuel s = .ok (.ok (env.resolveAll (callSites frames.tail) s)) := by
  have hzeros : (List.replicate initialFrames (0 : Addr)).length = initialFrames := List.length_replicate
  obtain ⟨c, hloop, hnum, hwhole⟩ := growthLoop_whole hbacktrace hlt hzeros (Nat.le_of_lt hfuel)
  rw [getCallStack_eq hbacktrace hdepth hloop hnum s, hwhole]

/-- The call on any deeper one. -/
lemma getCallStack_of_le (hbacktrace : Backtraces frames env.backtrace) (hfuel : 23 ≤ fuel)
    (hle : doubled 21 ≤ frames.length) (s : σ) : env.getCallStack fuel s = .ok (.ok ([], s)) := by
  have hdepth : 1 ≤ frames.length := Nat.le_trans (by decide) hle
  have hzeros : (List.replicate initialFrames (0 : Addr)).length = initialFrames := List.length_replicate
  obtain ⟨c, hloop, hnum⟩ := growthLoop_nothing hbacktrace hle hzeros hfuel
  have hnil : resize 0 c.stack 0 = [] := List.eq_nil_of_length_eq_zero (length_resize 0 c.stack 0)
  rw [getCallStack_eq hbacktrace hdepth hloop hnum s, hnil]
  rfl

lemma losesNoFrame_of_lt (hbacktrace : Backtraces frames env.backtrace) (hdepth : 1 ≤ frames.length)
    (hfuel : 23 ≤ fuel) (hlt : frames.length < doubled 21) (s : σ) : env.LosesNoFrame frames fuel s := by
  have hpairs := pairsFrames_callSites frames
  refine ⟨_, _, _, hpairs, getCallStack_of_lt hbacktrace hdepth hfuel hlt s, ?_, rfl⟩
  rw [length_resolveAll, hpairs.length]

/-- When the call returns no entry, frames are lost. -/
lemma not_losesNoFrame_of_nil (hcall : env.getCallStack fuel s = .ok (.ok ([], s))) (hdepth : 2 ≤ frames.length) :
    ¬ env.LosesNoFrame frames fuel s := by
  rintro ⟨sites, entries, s', -, hentries, hlength, -⟩
  rw [hcall] at hentries
  injection hentries with hentries
  injection hentries with hentries
  rw [← (Prod.mk.inj hentries).1] at hlength
  simp at hlength
  omega

end Whole

/-- `get_call_stack` ends on every stack, and loses no frame of it exactly when the stack is less deep than
the last doubling of the vector an `int` can count. -/
theorem get_call_stack_complete_iff {σ : Type} (env : CallStackEnv σ) (frames : List Addr)
    (hbacktrace : Backtraces frames env.backtrace) (hdepth : 1 ≤ frames.length) (fuel : Nat)
    (hfuel : 23 ≤ fuel) (s : σ) :
    (∃ outcome, env.getCallStack fuel s = .ok outcome) ∧
      (env.LosesNoFrame frames fuel s ↔ frames.length < 2097152000) := by
  have hlast : doubled 21 = 2097152000 := by decide
  rw [← hlast]
  by_cases hlt : frames.length < doubled 21
  · have hkept := losesNoFrame_of_lt hbacktrace hdepth hfuel hlt s
    refine ⟨?_, iff_of_true hkept hlt⟩
    obtain ⟨-, entries, s', -, hcall, -, -⟩ := hkept
    exact ⟨_, hcall⟩
  · have hle := Nat.not_lt.mp hlt
    have hcall := getCallStack_of_le hbacktrace hfuel hle s
    have hlost := not_losesNoFrame_of_nil hcall (Nat.le_trans (by decide) hle)
    exact ⟨⟨_, hcall⟩, iff_of_false hlost hlt⟩

/-- A program that has one function. -/
def oneFunction : ObjectAnswers where
  resolveFunctionName _ _ := some "f".toList
  resolveFilenameAndLine _ := ⟨"main.cpp".toList, some 7, "f".toList⟩

/-- A stack of its calls, with a clock that stands still. -/
def stackEnv (frames : List Addr) : CallStackEnv Unit :=
  .plain frames oneFunction ⟨false, false, false⟩ fun s => ("01-01-2026 12:00:00.000".toList, s)

lemma backtraces_stackEnv (frames : List Addr) : Backtraces frames (stackEnv frames).backtrace :=
  backtraces_plain _ _ _ _

theorem get_call_stack_complete_three :
    (∃ outcome, (stackEnv [0x4011d6, 0x401206, 0x401250]).getCallStack 23 () = .ok outcome) ∧
      (stackEnv [0x4011d6, 0x401206, 0x401250]).LosesNoFrame [0x4011d6, 0x401206, 0x401250] 23 () := by
  have hcomplete := get_call_stack_complete_iff (stackEnv [0x4011d6, 0x401206, 0x401250])
    [0x4011d6, 0x401206, 0x401250] (backtraces_stackEnv _) (by decide) 23 (Nat.le_refl 23) ()
  exact ⟨hcomplete.1, hcomplete.2.mpr (by decide)⟩

/-- The stack of a function that calls itself, always from the same place. -/
def recursionFrames (depth : Nat) : List Addr := List.replicate depth 0x4011d6

/-- 2097152000 frames fill the vector, and twice their number is negative as an `int`: nothing is captured. -/
theorem get_call_stack_loses_deep_recursion :
    (stackEnv (recursionFrames 2097152000)).getCallStack 23 () = .ok (.ok ([], ())) ∧
      ¬ (stackEnv (recursionFrames 2097152000)).LosesNoFrame (recursionFrames 2097152000) 23 () := by
  have hlength : (recursionFrames 2097152000).length = 2097152000 := List.length_replicate
  have hle : doubled 21 ≤ (recursionFrames 2097152000).length := hlength.ge
  have hcall := getCallStack_of_le (backtraces_stackEnv _) (Nat.le_refl 23) hle ()
  exact ⟨hcall, not_losesNoFrame_of_nil hcall (Nat.le_trans (by decide) hle)⟩

end CallStackLogger
