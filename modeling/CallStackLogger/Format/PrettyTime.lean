import Mathlib.Logic.Function.Basic
import CallStackLogger.Core.CBuffer
import CallStackLogger.Format.DurationField

/-!
# The time in front of a line

`pretty_time_into` of `include/prettyTime.h` writes the current time into a caller's buffer. Date and time change once a
second only, so every thread keeps the last ones it has rendered; the milliseconds are rendered anew for every line.
-/

namespace CallStackLogger

open Checked

/-! ### The rendering -/

/-- `PRETTY_TIME_BUF_SIZE`. -/
def prettyTimeBufSize : Nat := 64

/-- What `localtime_r` finds, with the year in full. The clock counts nanoseconds in 64 bits, which last from 1677 to
2262. -/
@[ext] structure Tm where
  mday : Nat
  mon : Nat
  year : Nat
  hour : Nat
  min : Nat
  sec : Nat
  mday_le : mday ≤ 31
  mon_lt : mon < 12
  le_year : 1677 ≤ year
  year_le : year ≤ 2262
  hour_lt : hour < 24
  min_lt : min < 60
  sec_le : sec ≤ 60

/-- `LOGGER_PRETTY_TIME_FORMAT`, rendered. -/
def strftimeText (t : Tm) : Text :=
  padLeft 2 '0' t.mday ++ '-' :: padLeft 2 '0' (t.mon + 1) ++ '-' :: decimal t.year ++ ' ' :: padLeft 2 '0' t.hour ++
    ':' :: padLeft 2 '0' t.min ++ ':' :: padLeft 2 '0' t.sec

/-- `strftime`: what does not fit is not written, and 0 is returned. -/
def strftimeInto (out : List Char) (t : Tm) : Except Fault (List Char × Nat) :=
  if (strftimeText t).length < out.length then do
    let out ← store out 0 (strftimeText t ++ ['\x00'])
    return (out, (strftimeText t).length)
  else return (out, 0)

/-- `LOGGER_PRETTY_MS_FORMAT`, rendered. -/
def millisecondsText (ms : Int) : Text :=
  '.' :: if 0 ≤ ms then padLeft 3 '0' ms.toNat else '-' :: padLeft 2 '0' ms.natAbs

/-- `to_time_t`, of a time in nanoseconds. -/
def secondsOf (now : Int) : Int := now.tdiv 1000000000

/-- `to_ms(tp) % 1000`. -/
def millisecondsOf (now : Int) : Int := (now.tdiv 1000000).tmod 1000

/-- `cached_second`, `cached_size` and `cached_prefix`. -/
structure TimeCache where
  second : Int := 0
  size : Nat := 0
  text : List Char := List.replicate prettyTimeBufSize '\x00'

section Calls

variable (localtime : Int → Tm)

def TimeCache.refresh (cache : TimeCache) (second : Int) : Except Fault TimeCache :=
  if second ≠ cache.second ∨ cache.size = 0 then do
    let (text, size) ← strftimeInto cache.text (localtime second)
    return ⟨second, size, text⟩
  else return cache

/-- `pretty_time_into`. -/
def prettyTimeInto (cache : TimeCache) (now : Int) (out : List Char) (cap : Nat) :
    Except Fault (TimeCache × List Char × Nat) := do
  if cap = 0 then return (cache, out, 0)
  let cache ← cache.refresh localtime (secondsOf now)
  let size := if cache.size < cap - 1 then cache.size else cap - 1
  let out ← copy out cache.text size
  let text := millisecondsText (millisecondsOf now)
  let out ← printAt out size (cap - size) text
  let size := size + if text.length < cap - size then text.length else cap - size - 1
  let out ← store out size ['\x00']
  return (cache, out, size)

/-- A call of a thread at some time, with a buffer of the capacity it is said to have. -/
structure TimeCall where
  thread : Nat
  now : Int
  cap : Nat
  out : List Char
  length_out : out.length = cap

/-- The calls of all threads; the cache is thread-local. -/
def prettyTimes : (Nat → TimeCache) → List TimeCall → Except Fault ((Nat → TimeCache) × List (List Char × Nat))
  | caches, []      => return (caches, [])
  | caches, c :: cs => do
    let (cache, out, size) ← prettyTimeInto localtime (caches c.thread) c.now c.out c.cap
    let (caches, results) ← prettyTimes (Function.update caches c.thread cache) cs
    return (caches, (out, size) :: results)

/-! ### Without the cache -/

/-- The time as it is rendered where there is room. -/
def prettyTime (now : Int) : Text := strftimeText (localtime (secondsOf now)) ++ millisecondsText (millisecondsOf now)

/-- What the call leaves in its buffer and returns. -/
def TimeCall.plain (c : TimeCall) : List Char × Nat :=
  if c.cap = 0 then (c.out, 0)
  else
    let text := (prettyTime localtime c.now).take (c.cap - 1)
    (filled (text ++ ['\x00']) c.out, text.length)

end Calls

/-! ### The width -/

section Width

variable {t t' : Tm} {width n n' : Nat} {a b : Text} {c : Char} {ms ms' : Int}

lemma length_padLeft_of_lt (hwidth : 0 < width) (h : n < 10 ^ width) : (padLeft width '0' n).length = width := by
  have hle : (decimal n).length ≤ width := (Nat.length_toDigits_le_iff (by decide) hwidth).mpr h
  rw [padLeft, List.length_append, List.length_replicate]
  omega

lemma length_twoDigits (h : n < 100) : (padLeft 2 '0' n).length = 2 := length_padLeft_of_lt (by decide) h

lemma length_year (hle : 1000 ≤ n) (h : n < 10000) : (decimal n).length = 4 := by
  have hfour : (decimal n).length ≤ 4 := (Nat.length_toDigits_le_iff (by decide) (by decide)).mpr h
  have hthree : ¬ (decimal n).length ≤ 3 := by
    rw [decimal, Nat.length_toDigits_le_iff (by decide) (by decide)]
    omega
  omega

lemma length_strftimeText (t : Tm) : (strftimeText t).length = 19 := by
  have hmday := length_twoDigits (Nat.lt_of_le_of_lt t.mday_le (by decide))
  have hmon := length_twoDigits (Nat.lt_of_le_of_lt t.mon_lt (by decide) : t.mon + 1 < 100)
  have hyear := length_year (Nat.le_trans (by decide) t.le_year) (Nat.lt_of_le_of_lt t.year_le (by decide))
  have hhour := length_twoDigits (Nat.lt_trans t.hour_lt (by decide))
  have hmin := length_twoDigits (Nat.lt_trans t.min_lt (by decide))
  have hsec := length_twoDigits (Nat.lt_of_le_of_lt t.sec_le (by decide))
  simp only [strftimeText, List.length_append, List.length_cons, hmday, hmon, hyear, hhour, hmin, hsec]

lemma millisecondsOf_mem {now : Int} (h : 0 ≤ now) : 0 ≤ millisecondsOf now ∧ millisecondsOf now < 1000 :=
  ⟨Int.tmod_nonneg _ (Int.tdiv_nonneg h (by decide)), Int.tmod_lt_of_pos _ (by decide)⟩

lemma length_millisecondsText (h : 0 ≤ ms) (hlt : ms < 1000) : (millisecondsText ms).length = 4 := by
  rw [millisecondsText, if_pos h, List.length_cons, length_padLeft_of_lt (by decide) (by omega)]

/-! ### What is written can be told apart -/

lemma padLeft_inj (h : padLeft width '0' n = padLeft width '0' n') : n = n' := by
  have hread := congrArg readNumber h
  rw [readNumber_padLeft_zero, readNumber_padLeft_zero] at hread
  exact Option.some.inj hread

lemma decimal_inj (h : decimal n = decimal n') : n = n' := by
  have hread := congrArg readNumber h
  rw [readNumber_decimal, readNumber_decimal] at hread
  exact Option.some.inj hread

/-- A field of two digits at the end. -/
lemma append_twoDigits_inj (hn : n < 100) (hn' : n' < 100)
    (h : a ++ c :: padLeft 2 '0' n = b ++ c :: padLeft 2 '0' n') : a = b ∧ n = n' := by
  have hlength : (c :: padLeft 2 '0' n).length = (c :: padLeft 2 '0' n').length := by
    rw [List.length_cons, List.length_cons, length_twoDigits hn, length_twoDigits hn']
  obtain ⟨hfront, hfield⟩ := List.append_inj' h hlength
  exact ⟨hfront, padLeft_inj (List.cons.inj hfield).2⟩

lemma strftimeText_inj (h : strftimeText t = strftimeText t') : t = t' := by
  have hlt : ∀ {m k : Nat}, m ≤ k → k < 100 → m < 100 := fun hle hk => Nat.lt_of_le_of_lt hle hk
  obtain ⟨h, hsec⟩ := append_twoDigits_inj (hlt t.sec_le (by decide)) (hlt t'.sec_le (by decide)) h
  obtain ⟨h, hmin⟩ := append_twoDigits_inj (hlt t.min_lt.le (by decide)) (hlt t'.min_lt.le (by decide)) h
  obtain ⟨h, hhour⟩ := append_twoDigits_inj (hlt t.hour_lt.le (by decide)) (hlt t'.hour_lt.le (by decide)) h
  have hyears : ('-' :: decimal t.year).length = ('-' :: decimal t'.year).length := by
    rw [List.length_cons, List.length_cons, length_year (Nat.le_trans (by decide) t.le_year)
      (Nat.lt_of_le_of_lt t.year_le (by decide)), length_year (Nat.le_trans (by decide) t'.le_year)
      (Nat.lt_of_le_of_lt t'.year_le (by decide))]
  obtain ⟨h, hyear⟩ := List.append_inj' h hyears
  obtain ⟨h, hmon⟩ := append_twoDigits_inj (hlt t.mon_lt (by decide)) (hlt t'.mon_lt (by decide)) h
  exact Tm.ext (padLeft_inj h) (Nat.succ.inj hmon) (decimal_inj (List.cons.inj hyear).2) hhour hmin hsec

lemma millisecondsText_inj (h : 0 ≤ ms) (h' : 0 ≤ ms') (heq : millisecondsText ms = millisecondsText ms') :
    ms = ms' := by
  rw [millisecondsText, millisecondsText, if_pos h, if_pos h'] at heq
  have hnat := padLeft_inj (List.cons.inj heq).2
  omega

end Width

/-! ### The cache is not seen -/

section Cache

variable {localtime : Int → Tm} {cache : TimeCache} {out : List Char} {cap : Nat} {now second : Int}

/-- What is cached is the rendering of the second it is cached for. -/
structure TimeCache.Sound (localtime : Int → Tm) (cache : TimeCache) : Prop where
  length : cache.text.length = prettyTimeBufSize
  rendered : cache.size ≠ 0 → cache.size = (strftimeText (localtime cache.second)).length ∧
    cache.text.take cache.size = strftimeText (localtime cache.second)

lemma strftimeInto_eq {text : List Char} (t : Tm) (h : text.length = prettyTimeBufSize) :
    strftimeInto text t = .ok (filled (strftimeText t ++ ['\x00']) text, (strftimeText t).length) := by
  have hsize : prettyTimeBufSize = 64 := rfl
  have hlength := length_strftimeText t
  have hroom : (strftimeText t ++ ['\x00']).length ≤ text.length := by
    rw [List.length_append, List.length_singleton]
    omega
  rw [strftimeInto, if_pos (by omega), store_front hroom]
  rfl

/-- The cache is good for the second it is asked for, whatever second it was for. -/
lemma TimeCache.Sound.refresh (h : cache.Sound localtime) (second : Int) :
    ∃ cache', cache.refresh localtime second = .ok cache' ∧ cache'.Sound localtime ∧
      cache'.second = second ∧ cache'.size ≠ 0 := by
  have hlength := length_strftimeText (localtime second)
  have hroom : (strftimeText (localtime second) ++ ['\x00']).length ≤ cache.text.length := by
    have hsize : prettyTimeBufSize = 64 := rfl
    rw [List.length_append, List.length_singleton, h.length]
    omega
  rw [TimeCache.refresh, strftimeInto_eq _ h.length]
  split_ifs with hstale
  · refine ⟨_, rfl, ⟨(length_filled hroom).trans h.length, fun _ => ⟨rfl, ?_⟩⟩, rfl, by simp only; omega⟩
    rw [filled, List.append_assoc, List.take_left]
  · rw [not_or, not_not] at hstale
    exact ⟨cache, rfl, h, hstale.1.symm, hstale.2⟩

/-- What is cut in two parts is cut as a whole. -/
lemma take_append_take (date ms : Text) (cap : Nat) :
    date.take (cap - 1) ++ ms.take (cap - (date.take (cap - 1)).length - 1) = (date ++ ms).take (cap - 1) := by
  rw [List.take_append, List.length_take]
  congr 2
  omega

lemma length_take_append (date ms : Text) (cap : Nat) :
    (date.take (cap - 1)).length + (if ms.length < cap - (date.take (cap - 1)).length then ms.length
      else cap - (date.take (cap - 1)).length - 1) = ((date ++ ms).take (cap - 1)).length := by
  rw [List.length_take, List.length_take, List.length_append]
  split_ifs <;> omega

/-- A call writes what it would have written without the cache. -/
lemma prettyTimeInto_eq (h : cache.Sound localtime) (hcap : cap ≠ 0) (hout : out.length = cap) :
    ∃ cache', prettyTimeInto localtime cache now out cap =
        .ok (cache', filled ((prettyTime localtime now).take (cap - 1) ++ ['\x00']) out,
          ((prettyTime localtime now).take (cap - 1)).length) ∧
      cache'.Sound localtime := by
  obtain ⟨cache', hrefresh, hsound, hsecond, hsize⟩ := h.refresh (secondsOf now)
  obtain ⟨hrendered, htake⟩ := hsound.rendered hsize
  rw [hsecond] at hrendered htake
  have hdate := length_strftimeText (localtime (secondsOf now))
  rw [prettyTime]
  generalize strftimeText (localtime (secondsOf now)) = date at *
  generalize hms : millisecondsText (millisecondsOf now) = ms
  have hfront : (if cache'.size < cap - 1 then cache'.size else cap - 1) = (date.take (cap - 1)).length := by
    rw [List.length_take]
    split_ifs <;> omega
  have hle : (date.take (cap - 1)).length ≤ cap - 1 := List.length_take_le _ _
  have hcopied : copy out cache'.text (date.take (cap - 1)).length = .ok (filled (date.take (cap - 1)) out) := by
    have hlength : (date.take (cap - 1)).length = min (cap - 1) cache'.size := by rw [List.length_take, hrendered]
    have hsource : cache'.text.take (min (cap - 1) cache'.size) = date.take (cap - 1) := by
      conv_rhs => rw [← htake, List.take_take]
    have hcached : min (cap - 1) cache'.size ≤ cache'.text.length := by
      rw [hsound.length, hrendered, hdate]
      exact Nat.le_trans (Nat.min_le_right _ _) (by decide)
    rw [hlength, copy_of_le hcached (by omega), hsource]
  have hprinted : printAt (filled (date.take (cap - 1)) out) (date.take (cap - 1)).length
      (cap - (date.take (cap - 1)).length) ms = .ok (filled ((date ++ ms).take (cap - 1) ++ ['\x00']) out) := by
    rw [printAt_filled (by omega) (by omega), take_append_take]
  have hstored : store (filled ((date ++ ms).take (cap - 1) ++ ['\x00']) out) ((date ++ ms).take (cap - 1)).length
      ['\x00'] = .ok (filled ((date ++ ms).take (cap - 1) ++ ['\x00']) out) := by
    apply store_again
    rw [List.length_append, List.length_take, List.length_singleton]
    omega
  refine ⟨cache', ?_, hsound⟩
  simp only [prettyTimeInto, if_neg hcap, hrefresh, bind, Except.bind, hfront, hcopied, hms, hprinted,
    length_take_append, hstored]
  rfl

lemma TimeCache.sound_initial (localtime : Int → Tm) : ({} : TimeCache).Sound localtime :=
  ⟨List.length_replicate, fun h => absurd rfl h⟩

lemma prettyTimes_eq {caches : Nat → TimeCache} (hcaches : ∀ thread, (caches thread).Sound localtime)
    (calls : List TimeCall) :
    ∃ caches', prettyTimes localtime caches calls = .ok (caches', calls.map (TimeCall.plain localtime)) := by
  induction calls generalizing caches with
  | nil => exact ⟨caches, rfl⟩
  | cons c cs ih =>
    -- a thread's own cache is all a call looks at
    obtain ⟨cache', hcall, hsound⟩ : ∃ cache', prettyTimeInto localtime (caches c.thread) c.now c.out c.cap =
        .ok (cache', c.plain localtime) ∧ cache'.Sound localtime := by
      by_cases hcap : c.cap = 0
      · refine ⟨caches c.thread, ?_, hcaches c.thread⟩
        rw [prettyTimeInto, TimeCall.plain, if_pos hcap, if_pos hcap]
        rfl
      · rw [TimeCall.plain, if_neg hcap]
        exact prettyTimeInto_eq (hcaches c.thread) hcap c.length_out
    have hnext : ∀ thread, (Function.update caches c.thread cache' thread).Sound localtime := by
      intro thread
      by_cases hthread : thread = c.thread
      · rw [hthread, Function.update_self]
        exact hsound
      · rw [Function.update_of_ne hthread]
        exact hcaches thread
    obtain ⟨caches', hrest⟩ := ih hnext
    refine ⟨caches', ?_⟩
    simp only [prettyTimes, hcall, hrest, bind, Except.bind]
    rfl

/-- A time from 1970 on has the width the offsets in a line are reckoned with. -/
lemma length_prettyTime (localtime : Int → Tm) (hnow : 0 ≤ now) :
    (prettyTime localtime now).length = prettyTimeLength := by
  obtain ⟨hle, hlt⟩ := millisecondsOf_mem hnow
  rw [prettyTime, List.length_append, length_strftimeText, length_millisecondsText hle hlt]
  rfl

lemma prettyTime_inj {now' : Int} (hnow : 0 ≤ now) (hnow' : 0 ≤ now') :
    prettyTime localtime now = prettyTime localtime now' ↔
      localtime (secondsOf now) = localtime (secondsOf now') ∧ millisecondsOf now = millisecondsOf now' := by
  constructor
  · intro h
    have hlength := (length_strftimeText (localtime (secondsOf now))).trans
      (length_strftimeText (localtime (secondsOf now'))).symm
    obtain ⟨hdate, hms⟩ := List.append_inj h hlength
    exact ⟨strftimeText_inj hdate, millisecondsText_inj (millisecondsOf_mem hnow).1 (millisecondsOf_mem hnow').1 hms⟩
  · rintro ⟨hdate, hms⟩
    rw [prettyTime, prettyTime, hdate, hms]

lemma nul_notMem_prettyTime (localtime : Int → Tm) (hnow : 0 ≤ now) : '\x00' ∉ prettyTime localtime now := by
  have hzero : ∀ width n, '\x00' ∉ padLeft width '0' n := fun width n => notMem_nul_padLeft (by decide) width n
  have hdecimal : ∀ n, '\x00' ∉ decimal n := fun n hmem => absurd (isDigit_of_mem_decimal hmem) (by decide)
  have hms : '\x00' ∉ millisecondsText (millisecondsOf now) := by
    rw [millisecondsText, if_pos (millisecondsOf_mem hnow).1, List.mem_cons, not_or]
    exact ⟨by decide, hzero _ _⟩
  simp [prettyTime, strftimeText, hzero, hdecimal, hms]

/-- A buffer with room for a time holds a whole one. -/
lemma TimeCall.exists_timestamp (c : TimeCall) (localtime : Int → Tm) (hnow : 0 ≤ c.now)
    (hcap : prettyTimeLength < c.cap) :
    ∃ time : Timestamp, time.text = prettyTime localtime c.now ∧ cStr (c.plain localtime).1 = time.text := by
  have hlength := length_prettyTime localtime hnow
  have hwhole : (prettyTime localtime c.now).take (c.cap - 1) = prettyTime localtime c.now :=
    List.take_of_length_le (by omega)
  refine ⟨⟨prettyTime localtime c.now, hlength⟩, rfl, ?_⟩
  rw [TimeCall.plain, if_neg (Nat.ne_zero_of_lt hcap), hwhole]
  exact takeWhile_filled (nul_notMem_prettyTime localtime hnow) c.out

/-- The cache of the rendered second is not seen: in whatever order the threads call, whatever the clock does and
whatever buffers they bring, every call stays inside its buffer and leaves in it what a rendering without a cache would
have, cut to the buffer. From 1970 on a buffer with room for it holds a time as long as the offsets in a line expect,
and two times are written alike only when they are the same local time to the millisecond. -/
theorem cached_time_is_plain (localtime : Int → Tm) (calls : List TimeCall) :
    (∃ caches, prettyTimes localtime (fun _ => {}) calls = .ok (caches, calls.map (TimeCall.plain localtime))) ∧
    (∀ c ∈ calls, 0 ≤ c.now → prettyTimeLength < c.cap →
      ∃ time : Timestamp, time.text = prettyTime localtime c.now ∧ cStr (c.plain localtime).1 = time.text) ∧
    ∀ now now', 0 ≤ now → 0 ≤ now' → (prettyTime localtime now = prettyTime localtime now' ↔
      localtime (secondsOf now) = localtime (secondsOf now') ∧ millisecondsOf now = millisecondsOf now') := by
  refine ⟨prettyTimes_eq (fun _ => TimeCache.sound_initial localtime) calls, ?_, fun now now' => prettyTime_inj⟩
  exact fun c _ hnow hcap => c.exists_timestamp localtime hnow hcap

/-- The first day of 1970, whatever the second is. -/
def epochDay (second : Int) : Tm where
  mday := 1
  mon := 0
  year := 1970
  hour := 0
  min := 0
  sec := (second % 60).toNat
  mday_le := by decide
  mon_lt := by decide
  le_year := by decide
  year_le := by decide
  hour_lt := by decide
  min_lt := by decide
  sec_le := by omega

example : prettyTime epochDay 7042000000 = "01-01-1970 00:00:07.042".toList := by decide

/-- Before 1970 the milliseconds are negative, and the time is longer. -/
example : (prettyTime epochDay (-500000000)).length = 24 := by decide

def epochCall : TimeCall where
  thread := 1
  now := 7042000000
  cap := prettyTimeBufSize
  out := List.replicate prettyTimeBufSize ' '
  length_out := List.length_replicate

theorem cached_time_is_plain_epoch : cStr (epochCall.plain epochDay).1 = "01-01-1970 00:00:07.042".toList := by
  obtain ⟨-, htimes, -⟩ := cached_time_is_plain epochDay [epochCall]
  obtain ⟨time, htext, hread⟩ := htimes epochCall List.mem_cons_self (by decide) (by decide)
  have hshown : prettyTime epochDay epochCall.now = "01-01-1970 00:00:07.042".toList := by decide
  rw [hread, htext, hshown]

end Cache

end CallStackLogger
