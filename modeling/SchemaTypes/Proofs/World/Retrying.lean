import SchemaTypes.Proofs.World.Acquiring

/-!
# Repeated requests

The loop around a request as a machine runs it, with a counter of 32 bits and pauses of
64 bits of seconds, both of which could overflow. The counter is below the number of
retries whenever it is increased, so nothing does overflow: after `k` turns the counter
is `k`, and the loop ends at the latest with the turn that follows the last retry. What
is sent in a world is what this loop sends.
-/

set_option autoImplicit false

namespace SchemaTypes.Acquisition

structure Span where
  seconds : UInt64
  nanoseconds : UInt32
deriving DecidableEq, Repr

namespace Span

def perSecond : Nat := 1000000000

def total (d : Span) : Nat := d.seconds.toNat * perSecond + d.nanoseconds.toNat

def ofMilliseconds (n : UInt64) : Span := ⟨n / 1000, (n % 1000).toUInt32 * 1000000⟩

/-- A span so many times; nothing if its seconds do not fit 64 bits. -/
def times? (d : Span) (k : UInt32) : Option Span :=
  let begun := d.nanoseconds.toUInt64 * k.toUInt64
  let seconds := d.seconds.toNat * k.toNat
  let whole := seconds + (begun / 1000000000).toNat
  if seconds < UInt64.size ∧ whole < UInt64.size then
    some ⟨UInt64.ofNat whole, (begun % 1000000000).toUInt32⟩
  else none

theorem times?_total {d : Span} {k : UInt32} (hd : d.nanoseconds.toNat < perSecond)
    (h : d.total * k.toNat < UInt64.size * perSecond) :
    ∃ e, d.times? k = some e ∧ e.total = d.total * k.toNat := by
  have hbegun : (d.nanoseconds.toUInt64 * k.toUInt64).toNat = d.nanoseconds.toNat * k.toNat := by
    rw [UInt64.toNat_mul, UInt32.toNat_toUInt64, UInt32.toNat_toUInt64]
    exact Nat.mod_eq_of_lt (Nat.lt_trans (Nat.mul_lt_mul'' hd k.toNat_lt) (by decide))
  have hquotient : ((d.nanoseconds.toUInt64 * k.toUInt64) / 1000000000).toNat =
      d.nanoseconds.toNat * k.toNat / perSecond := by
    rw [UInt64.toNat_div, hbegun]
    rfl
  have hremainder : ((d.nanoseconds.toUInt64 * k.toUInt64) % 1000000000).toUInt32.toNat =
      d.nanoseconds.toNat * k.toNat % perSecond := by
    rw [UInt64.toNat_toUInt32, UInt64.toNat_mod, hbegun]
    exact Nat.mod_eq_of_lt (Nat.lt_trans (Nat.mod_lt _ (by decide)) (by decide))
  have htotal : d.total * k.toNat =
      d.seconds.toNat * k.toNat * perSecond + d.nanoseconds.toNat * k.toNat := by
    rw [total, Nat.add_mul, Nat.mul_right_comm]
  generalize d.nanoseconds.toNat * k.toNat = begun at hquotient hremainder htotal
  generalize hseconds : d.seconds.toNat * k.toNat = seconds at htotal
  have hwhole : seconds + begun / perSecond < UInt64.size := by
    rw [htotal] at h
    simp only [perSecond, UInt64.size] at h ⊢
    omega
  have hfits : seconds < UInt64.size := Nat.lt_of_le_of_lt (Nat.le_add_right _ _) hwhole
  refine ⟨_, if_pos ?_, ?_⟩
  · rw [hseconds, hquotient]
    exact ⟨hfits, hwhole⟩
  · rw [htotal, total]
    dsimp only
    rw [hseconds, hquotient, hremainder, UInt64.toNat_ofNat_of_lt' hwhole]
    simp only [perSecond]
    omega

end Span

def pauseUnit : Span := .ofMilliseconds 200

theorem total_pauseUnit : pauseUnit.total = firstPause * 1000000 := by decide

theorem times?_pauseUnit (k : UInt32) :
    ∃ d, pauseUnit.times? k = some d ∧ d.total = firstPause * 1000000 * k.toNat := by
  have hk := k.toNat_lt
  rw [← total_pauseUnit]
  apply Span.times?_total (by decide)
  rw [total_pauseUnit]
  simp only [firstPause, Span.perSecond, UInt64.size]
  omega

def succ? (n : UInt32) : Option UInt32 := if n.toNat + 1 < UInt32.size then some (n + 1) else none

theorem succ?_of_lt {n limit : UInt32} (h : n < limit) :
    ∃ m, succ? n = some m ∧ m.toNat = n.toNat + 1 := by
  have hlt : n.toNat + 1 < UInt32.size :=
    Nat.lt_of_le_of_lt (UInt32.lt_iff_toNat_lt.mp h) limit.toNat_lt
  refine ⟨n + 1, if_pos hlt, ?_⟩
  rw [UInt32.toNat_add]
  exact Nat.mod_eq_of_lt hlt

/-- Where the loop is when it sends a request: its counter, and the counters of the warnings
and the pauses so far. -/
structure Loop where
  attempt : UInt32
  warned : List UInt32
  paused : List Span
deriving DecidableEq, Repr

variable {ε : Type}

/-- What a turn of the loop leads to: another one, the outcome of the last request, or a
number that does not fit. -/
inductive Turn (ε : Type)
  | again (l : Loop)
  | ended (l : Loop) (outcome : Except ε Reply)
  | overflow

def isRepeatable : Except ε Reply → Bool
  | .error _ => true
  | .ok reply => reply.status.isServerError

def turn (retries : UInt32) (l : Loop) (outcome : Except ε Reply) : Turn ε :=
  if isRepeatable outcome ∧ l.attempt < retries then
    match succ? l.attempt with
    | none => .overflow
    | some next =>
      match pauseUnit.times? next with
      | none => .overflow
      | some d => .again ⟨next, l.warned ++ [l.attempt], l.paused ++ [d]⟩
  else .ended l outcome

def turns (retries : UInt32) (outcomes : Nat → Except ε Reply) : Nat → Turn ε
  | 0 => .again ⟨0, [], []⟩
  | n + 1 =>
    match turns retries outcomes n with
    | .again l => turn retries l (outcomes n)
    | t => t

/-- The loop has done `k` turns, each of which was a retry. -/
structure Loop.Repeated (k : Nat) (l : Loop) : Prop where
  attempt : l.attempt.toNat = k
  warned : l.warned.map UInt32.toNat = List.range k
  paused : l.paused.map Span.total = (List.range k).map fun i => firstPause * (i + 1) * 1000000

theorem Loop.repeated_zero : Loop.Repeated 0 ⟨0, [], []⟩ := ⟨rfl, rfl, rfl⟩

theorem Loop.Repeated.turn {k : Nat} {l : Loop} (h : l.Repeated k) {retries : UInt32}
    (hk : k < retries.toNat) {outcome : Except ε Reply} (houtcome : isRepeatable outcome = true) :
    ∃ l', Acquisition.turn retries l outcome = .again l' ∧ l'.Repeated (k + 1) := by
  have hlt : l.attempt < retries := UInt32.lt_iff_toNat_lt.mpr (h.attempt.symm ▸ hk)
  obtain ⟨next, hnext, hnumber⟩ := succ?_of_lt hlt
  obtain ⟨d, hd, htotal⟩ := times?_pauseUnit next
  rw [h.attempt] at hnumber
  refine ⟨⟨next, l.warned ++ [l.attempt], l.paused ++ [d]⟩, ?_, hnumber, ?_, ?_⟩
  · rw [Acquisition.turn, if_pos ⟨houtcome, hlt⟩, hnext]
    dsimp only
    rw [hd]
  · rw [List.map_append, h.warned, List.range_succ]
    exact congrArg (List.range k ++ [·]) h.attempt
  · rw [List.map_append, h.paused, List.range_succ, List.map_append, List.map_singleton, htotal,
      hnumber, List.map_singleton, Nat.mul_right_comm]

theorem Loop.Repeated.ended {k : Nat} {l : Loop} (h : l.Repeated k) {retries : UInt32}
    {outcome : Except ε Reply}
    (hend : isRepeatable outcome = false ∨ k = retries.toNat) :
    Acquisition.turn retries l outcome = .ended l outcome := by
  rw [Acquisition.turn, if_neg]
  rintro ⟨houtcome, hlt⟩
  rcases hend with hfinal | rfl
  · rw [hfinal] at houtcome
    cases houtcome
  · exact Nat.ne_of_lt (UInt32.lt_iff_toNat_lt.mp hlt) h.attempt

theorem turns_repeated {retries : UInt32} (outcomes : Nat → Except ε Reply) {k : Nat}
    (hk : k ≤ retries.toNat) (h : ∀ i < k, isRepeatable (outcomes i) = true) :
    ∃ l, turns retries outcomes k = .again l ∧ l.Repeated k := by
  induction k with
  | zero => exact ⟨_, rfl, Loop.repeated_zero⟩
  | succ k ih =>
    obtain ⟨l, hl, hrepeated⟩ := ih (Nat.le_of_succ_le hk) fun i hi => h i (Nat.lt_succ_of_lt hi)
    obtain ⟨l', hl', hrepeated'⟩ := hrepeated.turn hk (h k (Nat.lt_succ_self k))
    refine ⟨l', ?_, hrepeated'⟩
    rw [turns, hl]
    exact hl'

theorem turns_ended {retries : UInt32} (outcomes : Nat → Except ε Reply) {k : Nat}
    (hk : k ≤ retries.toNat) (h : ∀ i < k, isRepeatable (outcomes i) = true)
    (hend : isRepeatable (outcomes k) = false ∨ k = retries.toNat) :
    ∃ l, turns retries outcomes (k + 1) = .ended l (outcomes k) ∧ l.Repeated k := by
  obtain ⟨l, hl, hrepeated⟩ := turns_repeated outcomes hk h
  refine ⟨l, ?_, hrepeated⟩
  rw [turns, hl]
  exact hrepeated.ended hend

theorem exists_last (repeatable : Nat → Bool) (limit : Nat) :
    ∃ n ≤ limit, (∀ i < n, repeatable i = true) ∧ (repeatable n = false ∨ n = limit) := by
  induction limit with
  | zero => exact ⟨0, Nat.le_refl 0, fun i hi => absurd hi (Nat.not_lt_zero i), .inr rfl⟩
  | succ limit ih =>
    obtain ⟨n, hn, hall, hlast⟩ := ih
    cases hrepeatable : repeatable n with
    | false => exact ⟨n, Nat.le_succ_of_le hn, hall, .inl hrepeatable⟩
    | true =>
      obtain rfl : n = limit := hlast.resolve_left fun h => by rw [hrepeatable] at h; cases h
      refine ⟨n + 1, Nat.le_refl _, fun i hi => ?_, .inr rfl⟩
      rcases Nat.lt_succ_iff_lt_or_eq.mp hi with hlt | rfl
      · exact hall i hlt
      · exact hrepeatable

theorem retryLine?_eq_none_iff {url : String} {attempt : Nat} {outcome : Except Trouble Reply} :
    retryLine? url attempt outcome = none ↔ isRepeatable outcome = false := by
  cases outcome with
  | error e => exact iff_of_false (Option.some_ne_none _) Bool.false_ne_true.symm
  | ok reply =>
    show retryLine? url attempt (.ok reply) = none ↔ reply.status.isServerError = false
    rw [retryLine?]
    cases reply.status.isServerError with
    | true => exact iff_of_false (Option.some_ne_none _) Bool.false_ne_true.symm
    | false => exact iff_of_true rfl rfl

theorem map_mul_div {c : Nat} (hc : 0 < c) (ns : List Nat) :
    (ns.map (· * c)).map (· / c) = ns := by
  rw [List.map_map]
  exact (List.map_congr_left fun n _ => Nat.mul_div_cancel n hc).trans (List.map_id ns)

end SchemaTypes.Acquisition

namespace SchemaTypes.World

open Acquisition

def outcomes (w : World) (q : Request) (i : Nat) : Except Trouble Reply :=
  w.outcome (w.requests.length + i) q

def resent (w : World) (q : Request) (outcomes : Nat → Except Trouble Reply) (k n : Nat) : World :=
  { w with
    requests := w.requests ++ List.replicate (n + 1) q
    pauses := w.pauses ++ (List.range' k n).map fun i => firstPause * (i + 1)
    reports := w.reports ++ (List.range' k n).filterMap fun i => retryLine? q.url i (outcomes i) }

theorem resent_succ {w : World} {q : Request} {outcomes : Nat → Except Trouble Reply} {k : Nat}
    {line : String} (hline : retryLine? q.url k (outcomes k) = some line) (n : Nat) :
    w.resent q outcomes k (n + 1) =
      resent { w with
        requests := w.requests ++ [q]
        pauses := w.pauses ++ [firstPause * (k + 1)]
        reports := w.reports ++ [line] } q outcomes (k + 1) n := by
  have hlines : (List.range' k (n + 1)).filterMap (fun i => retryLine? q.url i (outcomes i)) =
      line :: (List.range' (k + 1) n).filterMap fun i => retryLine? q.url i (outcomes i) := by
    rw [List.range'_succ]
    exact List.filterMap_cons_some hline
  rw [resent, resent, hlines, List.range'_succ, List.map_cons]
  dsimp only
  rw [List.append_assoc, List.append_assoc, List.append_assoc]
  rfl

theorem send_resent {q : Request} {outcomes : Nat → Except Trouble Reply} {left k n : Nat}
    {w : World} (houtcome : ∀ i, w.outcome (w.requests.length + i) q = outcomes (k + i))
    (hn : n ≤ left) (hall : ∀ i < n, isRepeatable (outcomes (k + i)) = true)
    (hlast : isRepeatable (outcomes (k + n)) = false ∨ n = left) :
    (send q left k : StateM World (Except Trouble Reply)).run w =
      (outcomes (k + n), w.resent q outcomes k n) := by
  -- After a turn the next request is one more, in a world with one more request.
  induction n generalizing left k w with
  | zero =>
    have hfirst := houtcome 0
    rw [Nat.add_zero, Nat.add_zero] at hfirst
    have hsame : w.resent q outcomes k 0 = { w with requests := w.requests ++ [q] } := by
      rw [resent, List.range'_zero, List.map_nil, List.filterMap_nil, List.append_nil,
        List.append_nil]
      rfl
    rw [hsame, Nat.add_zero]
    cases left with
    | zero => rw [send, request_run, hfirst]
    | succ left =>
      have hfinal := hlast.resolve_right (Nat.succ_ne_zero left).symm
      rw [Nat.add_zero] at hfinal
      rw [send, run_bind, request_run, hfirst]
      dsimp only
      rw [retryLine?_eq_none_iff.mpr hfinal]
      rfl
  | succ n ih =>
    obtain ⟨left, rfl⟩ : ∃ m, left = m + 1 := ⟨left - 1, by omega⟩
    have hfirst := houtcome 0
    rw [Nat.add_zero, Nat.add_zero] at hfirst
    rw [send, run_bind, request_run, hfirst]
    dsimp only
    cases hline : retryLine? q.url k (outcomes k) with
    | none =>
      have hrepeatable := hall 0 (Nat.zero_lt_succ n)
      rw [Nat.add_zero, retryLine?_eq_none_iff.mp hline] at hrepeatable
      cases hrepeatable
    | some line =>
      have hstep (i : Nat) : k + 1 + i = k + (i + 1) := by omega
      rw [resent_succ hline, ← hstep n]
      refine ih (fun i => ?_) (Nat.le_of_succ_le_succ hn) (fun i hi => ?_) ?_
      · rw [List.length_append, List.length_singleton, hstep, Nat.add_assoc, Nat.add_comm 1 i]
        exact houtcome (i + 1)
      · rw [hstep]
        exact hall (i + 1) (Nat.succ_lt_succ hi)
      · rw [hstep]
        exact hlast.imp_right Nat.succ.inj

/-- The world in which the loop has sent, waited and told what its state says. -/
def sent (w : World) (q : Request) (l : Loop) : World :=
  { w with
    requests := w.requests ++ List.replicate (l.attempt.toNat + 1) q
    pauses := w.pauses ++ l.paused.map fun d => d.total / 1000000
    reports := w.reports ++
      l.warned.filterMap fun k => retryLine? q.url k.toNat (w.outcomes q k.toNat) }

theorem sent_eq_resent {l : Loop} {n : Nat} (h : l.Repeated n) (w : World) (q : Request) :
    w.sent q l = w.resent q (w.outcomes q) 0 n := by
  have hpauses : (l.paused.map fun d => d.total / 1000000) =
      (List.range n).map fun i => firstPause * (i + 1) := by
    have htotals : ((List.range n).map fun i => firstPause * (i + 1) * 1000000) =
        ((List.range n).map fun i => firstPause * (i + 1)).map (· * 1000000) := by
      rw [List.map_map]
      rfl
    show l.paused.map ((· / 1000000) ∘ Span.total) = _
    rw [← List.map_map, h.paused, htotals, map_mul_div (by decide)]
  have hlines : (l.warned.filterMap fun k => retryLine? q.url k.toNat (w.outcomes q k.toNat)) =
      (List.range n).filterMap fun i => retryLine? q.url i (w.outcomes q i) := by
    rw [← h.warned, List.filterMap_map]
    rfl
  rw [sent, resent, h.attempt, hpauses, hlines, List.range_eq_range']

/-- What is sent in a world is what the loop sends: its last outcome is how the request goes,
and there are as many requests as turns. -/
theorem send_turns (w : World) (q : Request) (retries : UInt32) :
    ∃ n l, n ≤ retries.toNat ∧ turns retries (w.outcomes q) (n + 1) = .ended l (w.outcomes q n) ∧
      l.Repeated n ∧ (send q retries.toNat 0 : StateM World (Except Trouble Reply)).run w =
        (w.outcomes q n, w.sent q l) := by
  obtain ⟨n, hn, hall, hlast⟩ :=
    exists_last (fun i => isRepeatable (w.outcomes q i)) retries.toNat
  obtain ⟨l, hl, hrepeated⟩ := turns_ended (w.outcomes q) hn hall hlast
  refine ⟨n, l, hn, hl, hrepeated, ?_⟩
  have hstart (i : Nat) : 0 + i = i := Nat.zero_add i
  have hrun : (send q retries.toNat 0 : StateM World (Except Trouble Reply)).run w =
      (w.outcomes q (0 + n), w.resent q (w.outcomes q) 0 n) := by
    refine send_resent (fun i => ?_) hn (fun i hi => ?_) ?_
    · rw [hstart]
      rfl
    · rw [hstart]
      exact hall i hi
    · rw [hstart]
      exact hlast
  rwa [hstart, ← sent_eq_resent hrepeated] at hrun

end SchemaTypes.World

namespace SchemaTypes.Acquisition

/-- If all requests fail on the way, there is one more than there may be retries, a warning
and a pause before each retry, and then the failure of the last request. The counter never
passes the number of retries, and neither it nor a pause overflows: whatever is sent in a
world is sent by the loop with that counter. -/
theorem fetchDocument_unanswered (q : Request) (retries : UInt32) {w : World}
    (hclient : w.client = true) (hfail : ∀ i, w.answer (w.requests.length + i) q = none) :
    (fetchDocument q retries.toNat : StateM World _).run w =
      (.error (.unanswered q.url (w.trouble (w.requests.length + retries.toNat) q)),
        { w with
          requests := w.requests ++ List.replicate (retries.toNat + 1) q
          pauses := w.pauses ++ (List.range retries.toNat).map fun i => 200 * (i + 1)
          reports := w.reports ++ (List.range retries.toNat).map fun i =>
            progress .warning "fetch"
              ("Document request failed; retrying. url=" ++ q.url ++
                told " error=" (w.trouble (w.requests.length + i) q) ++
                " attempt=" ++ toString i) }) ∧
    (∀ {ε : Type} (errors : Nat → ε),
      (∀ k ≤ retries.toNat, ∃ l, turns retries (fun i => .error (errors i)) k = .again l ∧
        l.Repeated k ∧ l.attempt ≤ retries) ∧
      ∃ l, turns retries (fun i => .error (errors i)) (retries.toNat + 1) =
          .ended l (.error (errors retries.toNat)) ∧
        l.Repeated retries.toNat ∧ l.attempt = retries) ∧
    ∀ v : World, ∃ n l, n ≤ retries.toNat ∧
      turns retries (v.outcomes q) (n + 1) = .ended l (v.outcomes q n) ∧ l.Repeated n ∧
      (send q retries.toNat 0 : StateM World (Except Trouble Reply)).run v =
        (v.outcomes q n, v.sent q l) := by
  refine ⟨?_, fun errors => ⟨fun k hk => ?_, ?_⟩, fun v => v.send_turns q retries⟩
  · have houtcomes : w.outcomes q =
        fun i => .error (w.trouble (w.requests.length + i) q) := by
      funext i
      rw [World.outcomes, World.outcome, hfail]
    obtain ⟨n, l, hn, hended, hrepeated, hrun⟩ := w.send_turns q retries
    -- A turn before the last retry leads to another turn.
    have hlast : n = retries.toNat := by
      rcases Nat.lt_or_eq_of_le hn with hlt | heq
      · rw [houtcomes] at hended
        obtain ⟨l', hagain, -⟩ :=
          turns_repeated (fun i => .error (w.trouble (w.requests.length + i) q))
            (Nat.succ_le_of_lt hlt) fun _ _ => rfl
        rw [hagain] at hended
        cases hended
      · exact heq
    subst hlast
    have hlines : ((List.range retries.toNat).filterMap fun i =>
        retryLine? q.url i (.error (w.trouble (w.requests.length + i) q))) =
          (List.range retries.toNat).map fun i => progress .warning "fetch"
            ("Document request failed; retrying. url=" ++ q.url ++
              told " error=" (w.trouble (w.requests.length + i) q) ++
              " attempt=" ++ toString i) :=
      congrFun List.filterMap_eq_map _
    rw [World.sent_eq_resent hrepeated, houtcomes] at hrun
    rw [fetchDocument, World.run_bind, World.makeClient_run, if_pos hclient]
    dsimp only
    rw [World.run_bind, hrun, World.resent, ← List.range_eq_range', hlines]
    rfl
  · obtain ⟨l, hl, hrepeated⟩ :=
      turns_repeated (fun i => .error (errors i)) hk fun _ _ => rfl
    refine ⟨l, hl, hrepeated, UInt32.le_iff_toNat_le.mpr ?_⟩
    rw [hrepeated.attempt]
    exact hk
  · obtain ⟨l, hl, hrepeated⟩ :=
      turns_ended (fun i => .error (errors i)) (Nat.le_refl retries.toNat)
        (fun _ _ => rfl) (.inr rfl)
    exact ⟨l, hl, hrepeated, UInt32.toNat_inj.mp hrepeated.attempt⟩

theorem fetchDocument_unanswered_nowhere :
    let q : Request := ⟨"nowhere", none, "ko", 30⟩
    let w : World := {
      files := .directory []
      directory := []
      home := none
      answer := fun _ _ => none
      trouble := fun n _ => { words := ["refused", "reset", "timed out"][n]? } }
    (∃ after, (fetchDocument q 2 : StateM World _).run w =
        (.error (.unanswered "nowhere" { words := some "timed out" }), after) ∧
      after.requests = [q, q, q] ∧ after.pauses = [200, 400] ∧
      after.reports =
        ["WARN typepick_cli::fetch: Document request failed; retrying. url=nowhere error=refused " ++
           "attempt=0",
         "WARN typepick_cli::fetch: Document request failed; retrying. url=nowhere error=reset " ++
           "attempt=1"]) ∧
      ∃ l, turns 4294967295 (fun i => .error i) 4294967296 = .ended l (.error 4294967295) ∧
        l.attempt = 4294967295 := by
  intro q w
  refine ⟨⟨_, (fetchDocument_unanswered q 2 (w := w) rfl fun _ => rfl).1, rfl, rfl, by decide⟩, ?_⟩
  have hlargest : (4294967295 : UInt32).toNat = 4294967295 := by decide
  obtain ⟨l, hl, -, hattempt⟩ :=
    ((fetchDocument_unanswered q 4294967295 (w := w) rfl fun _ => rfl).2.1 id).2
  rw [hlargest] at hl
  exact ⟨l, hl, hattempt⟩

end SchemaTypes.Acquisition
