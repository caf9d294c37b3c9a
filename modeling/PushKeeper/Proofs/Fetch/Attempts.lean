import PushKeeper.Proofs.Fetch.Cooldown
import PushKeeper.Proofs.Receiver.Run

namespace PushKeeper.Fetch

open Receiver (Call InFlight Reply)
open Store (Honest KeyValueStore)
open Store.Values

inductive Exchange
  | asked (call : Call)
  | answered (reply : Reply)

namespace Exchange

def isEnqueue : Exchange → Bool
  | asked (.enqueue _) => true
  | _ => false

def isPull : Exchange → Bool
  | asked .legacyPull => true
  | _ => false

def isRefusal : Exchange → Bool
  | answered (.enqueued (.ok true)) => false
  | answered (.enqueued _) => true
  | _ => false

end Exchange

/-- What a fetch asks and is answered, from its start to where it is. -/
inductive Attempt : Progress → List Exchange → Prop
  | enqueuing (strategy : Strategy) : Attempt (.enqueuing strategy) [.asked (.enqueue strategy)]
  | accepted (strategy : Strategy) : Attempt (.finished ⟨strategy, true, false⟩)
      [.asked (.enqueue strategy), .answered (.enqueued (.ok true))]
  | pulling (strategy : Strategy) {answer : Except Failure Bool} (h : answer ≠ .ok true) :
      Attempt (.pulling strategy)
        [.asked (.enqueue strategy), .answered (.enqueued answer), .asked .legacyPull]
  | fellBack (strategy : Strategy) {answer : Except Failure Bool} (h : answer ≠ .ok true)
      (pulled : Except Failure Unit) : Attempt (.finished ⟨strategy, false, true⟩)
        [.asked (.enqueue strategy), .answered (.enqueued answer), .asked .legacyPull,
          .answered (.pulled pulled)]

namespace Progress

def asks (p : Progress) : List Exchange :=
  (InFlight.ofFetch? p).toList.map fun task => .asked task.call

def onReply (reply : Reply) (p : Progress) : Progress :=
  match reply with
  | .enqueued answer => p.onEnqueued answer
  | .pulled answer => p.onPulled answer
  | .registered _ => p

def exchange (reply : Reply) (p : Progress) : List Exchange :=
  if (InFlight.ofFetch? p).any (·.fits reply) then .answered reply :: (p.onReply reply).asks else []

theorem afterEnqueue_of_ne {strategy : Strategy} {answer : Except Failure Bool} (h : answer ≠ .ok true) :
    afterEnqueue strategy answer = .pulling strategy := by
  rcases answer with _ | _ | _
  · rfl
  · rfl
  · exact absurd rfl h

theorem onReply_of_not_fits {p : Progress} {task : InFlight} {reply : Reply}
    (hp : InFlight.ofFetch? p = some task) (h : task.fits reply = false) : p.onReply reply = p := by
  cases p with
  | enqueuing strategy | pulling strategy =>
    obtain rfl := Option.some.inj hp
    cases reply <;> first | rfl | cases h
  | finished outcome => cases hp

theorem ofFetch?_onReply_ne {p : Progress} {reply : Reply}
    (h : (InFlight.ofFetch? p).any (·.fits reply)) :
    InFlight.ofFetch? (p.onReply reply) ≠ InFlight.ofFetch? p := by
  cases p with
  | enqueuing strategy =>
    rcases reply with _ | (_ | _ | _) | _ <;>
      simp_all [onReply, onEnqueued, afterEnqueue, InFlight.ofFetch?, InFlight.fits]
  | pulling strategy =>
    cases reply <;> simp_all [onReply, onPulled, afterPull, InFlight.ofFetch?, InFlight.fits]
  | finished outcome => cases h

theorem countP_isEnqueue_exchange (reply : Reply) (p : Progress) :
    (p.exchange reply).countP Exchange.isEnqueue = 0 := by
  cases p <;> rcases reply with _ | (_ | _ | _) | _ <;> rfl

theorem countP_isPull_exchange (reply : Reply) (p : Progress) :
    (p.exchange reply).countP Exchange.isPull = (p.exchange reply).countP Exchange.isRefusal := by
  cases p <;> rcases reply with _ | (_ | _ | _) | _ <;> rfl

end Progress

theorem Attempt.onReply {p : Progress} {xs : List Exchange} (h : Attempt p xs) (reply : Reply) :
    Attempt (p.onReply reply) (xs ++ p.exchange reply) := by
  cases h with
  | enqueuing strategy =>
    cases reply with
    | registered outcome => exact .enqueuing strategy
    | enqueued answer =>
      by_cases ha : answer = .ok true
      · subst ha
        exact .accepted strategy
      · have hp : (Progress.enqueuing strategy).onReply (.enqueued answer) = .pulling strategy :=
          Progress.afterEnqueue_of_ne ha
        rw [Progress.exchange, hp]
        exact .pulling strategy ha
    | pulled answer => exact .enqueuing strategy
  | accepted strategy => cases reply <;> exact .accepted strategy
  | pulling strategy ha =>
    cases reply with
    | registered outcome => exact .pulling strategy ha
    | enqueued answer => exact .pulling strategy ha
    | pulled answer => exact .fellBack strategy ha answer
  | fellBack strategy ha pulled => cases reply <;> exact .fellBack strategy ha pulled

def Happening.isStart {σ : Type} : Happening σ → Bool
  | start _ => true
  | _ => false

variable {σ : Type} [KeyValueStore σ] [Honest σ]

namespace Jobs

def exchange (n : Nat) (reply : Reply) (j : Jobs σ) : List (Nat × Exchange) :=
  (j.jobs[n]?.elim [] fun job => job.progress.exchange reply).map (n, ·)

def exchanges : Happening σ → Jobs σ → List (Nat × Exchange)
  | .start now, j => (Progress.start j.policy now.toNat j.store).1.asks.map (j.jobs.length, ·)
  | .enqueued n answer, j => j.exchange n (.enqueued answer)
  | .pulled n answer, j => j.exchange n (.pulled answer)
  | .others _, _ => []

def log (j : Jobs σ) (hs : List (Happening σ)) : List (Nat × Exchange) :=
  Run.notes happen exchanges j hs

def own (n : Nat) (xs : List (Nat × Exchange)) : List Exchange :=
  xs.filterMap fun x => if x.1 = n then some x.2 else none

@[simp] theorem own_append (n : Nat) (xs ys : List (Nat × Exchange)) :
    own n (xs ++ ys) = own n xs ++ own n ys := by
  simp [own]

theorem own_map_self (n : Nat) (xs : List Exchange) : own n (xs.map (n, ·)) = xs := by
  simp [own, List.filterMap_map]

theorem own_map_of_ne {m n : Nat} (h : m ≠ n) (xs : List Exchange) : own n (xs.map (m, ·)) = [] := by
  simp [own, h]

theorem exists_happen_eq {p : Progress} {reply : Reply} (h : (InFlight.ofFetch? p).any (·.fits reply))
    (n : Nat) : ∃ a : Happening σ, ∀ j : Jobs σ,
      j.happen a = { j with jobs := j.jobs.modify n (.advance (.onReply reply)) } ∧
        exchanges a j = j.exchange n reply := by
  cases reply with
  | enqueued answer => exact ⟨.enqueued n answer, fun j => ⟨rfl, rfl⟩⟩
  | pulled answer => exact ⟨.pulled n answer, fun j => ⟨rfl, rfl⟩⟩
  | registered outcome => cases p <;> cases h

theorem length_jobs_after (policy : Policy) (s : σ) (hs : List (Happening σ)) :
    ((idle policy s).after hs).jobs.length = hs.countP Happening.isStart := by
  induction hs using List.reverseRecOn with
  | nil => rfl
  | append_singleton hs h ih =>
    rw [after_concat, List.countP_append, ← ih]
    cases h with
    | others s =>
      simp only [happen]
      split <;> rfl
    | _ => simp [happen, Happening.isStart]

theorem log_concat (j : Jobs σ) (hs : List (Happening σ)) (h : Happening σ) :
    j.log (hs ++ [h]) = j.log hs ++ exchanges h (j.after hs) := by
  simp [log, after]

omit [KeyValueStore σ] [Honest σ] in
theorem countP_exchange (p : Exchange → Bool) (n : Nat) (reply : Reply) (j : Jobs σ) :
    (j.exchange n reply).countP (p ·.2) =
      j.jobs[n]?.elim 0 fun job => (job.progress.exchange reply).countP p := by
  rw [exchange, List.countP_map]
  cases j.jobs[n]? <;> rfl

structure Attempted (j : Jobs σ) (xs : List (Nat × Exchange)) : Prop where
  attempt : ∀ n job, j.jobs[n]? = some job → Attempt job.progress (own n xs)
  own_eq_nil : ∀ n, j.jobs.length ≤ n → own n xs = []
  enqueues : xs.countP (·.2.isEnqueue) = j.jobs.length
  pulls : xs.countP (·.2.isPull) = xs.countP (·.2.isRefusal)

namespace Attempted

variable {j : Jobs σ} {xs : List (Nat × Exchange)}

theorem start (h : Attempted j xs) (now : UInt64) :
    Attempted (j.happen (.start now)) (xs ++ exchanges (.start now) j) := by
  have hlength : (j.happen (.start now)).jobs.length = j.jobs.length + 1 := by simp [happen]
  constructor
  · intro n job hn
    obtain hlt | rfl | hgt := Nat.lt_trichotomy n j.jobs.length
    · have hold : j.jobs[n]? = some job := by
        simpa [happen, List.getElem?_append_left hlt] using hn
      simpa [exchanges, own_map_of_ne (Nat.ne_of_gt hlt)] using h.attempt n job hold
    · obtain rfl : ⟨now, .enqueuing (Progress.strategyAt j.policy now.toNat j.store)⟩ = job := by
        simpa [happen, Progress.start] using hn
      rw [own_append, h.own_eq_nil _ (Nat.le_refl _), exchanges, own_map_self]
      exact .enqueuing _
    · rw [List.getElem?_eq_none (hlength ▸ hgt)] at hn
      cases hn
  · intro n hn
    rw [hlength] at hn
    rw [own_append, h.own_eq_nil n (Nat.le_of_succ_le hn), exchanges, own_map_of_ne (Nat.ne_of_lt hn)]
    rfl
  · rw [List.countP_append, h.enqueues, hlength]
    rfl
  · rw [List.countP_append, List.countP_append, h.pulls]
    rfl

omit [KeyValueStore σ] [Honest σ] in
theorem answer (h : Attempted j xs) (n : Nat) (reply : Reply) :
    Attempted { j with jobs := j.jobs.modify n (.advance (.onReply reply)) }
      (xs ++ j.exchange n reply) := by
  constructor
  · intro m job hm
    by_cases hmn : n = m
    · subst hmn
      obtain ⟨job, hj, rfl⟩ : ∃ before, j.jobs[n]? = some before ∧
          Job.advance (.onReply reply) before = job := by
        simpa [List.getElem?_modify] using hm
      rw [own_append, exchange, hj, own_map_self]
      exact (h.attempt n job hj).onReply reply
    · have hj : j.jobs[m]? = some job := by simpa [List.getElem?_modify, hmn] using hm
      simpa [exchange, own_map_of_ne hmn] using h.attempt m job hj
  · intro m hm
    rw [List.length_modify] at hm
    rw [own_append, h.own_eq_nil m hm, exchange]
    by_cases hmn : n = m
    · subst hmn
      rw [List.getElem?_eq_none hm]
      rfl
    · rw [own_map_of_ne hmn]
      rfl
  · have hx : (j.exchange n reply).countP (·.2.isEnqueue) = 0 := by
      rw [countP_exchange Exchange.isEnqueue]
      cases j.jobs[n]? with
      | none => rfl
      | some job => exact job.progress.countP_isEnqueue_exchange reply
    rw [List.countP_append, h.enqueues, hx, List.length_modify]
    rfl
  · have hx : (j.exchange n reply).countP (·.2.isPull) =
        (j.exchange n reply).countP (·.2.isRefusal) := by
      rw [countP_exchange Exchange.isPull, countP_exchange Exchange.isRefusal]
      cases j.jobs[n]? with
      | none => rfl
      | some job => exact job.progress.countP_isPull_exchange reply
    rw [List.countP_append, List.countP_append, h.pulls, hx]

theorem happen (h : Attempted j xs) (a : Happening σ) :
    Attempted (j.happen a) (xs ++ exchanges a j) := by
  cases a with
  | start now => exact h.start now
  | enqueued n answer => exact h.answer n (.enqueued answer)
  | pulled n answer => exact h.answer n (.pulled answer)
  | others s =>
    rw [exchanges, List.append_nil]
    simp only [Jobs.happen]
    split
    · exact ⟨h.attempt, h.own_eq_nil, h.enqueues, h.pulls⟩
    · exact h

end Attempted

theorem attempted (policy : Policy) (s : σ) (hs : List (Happening σ)) :
    Attempted ((idle policy s).after hs) ((idle policy s).log hs) := by
  induction hs using List.reverseRecOn with
  | nil => constructor <;> simp [idle, log, own]
  | append_singleton hs h ih =>
    rw [after_concat, log_concat]
    exact ih.happen h

/-- The time of the last foreground fetch, as far as the store says it. -/
def toldTime (s : σ) : Nat := if (KeyValueStore.get lastFetchKey s).isOk then stampTime s else 0

theorem lastStamp_eq_toldTime (s : σ) : Progress.lastStamp s = toldTime s := by
  unfold Progress.lastStamp lastFetch toldTime
  cases h : KeyValueStore.get lastFetchKey s with
  | error e => rfl
  | ok text =>
    rw [Honest.get_ok h]
    rfl

theorem strategy_of_getElem? {policy : Policy} {s : σ} {hs : List (Happening σ)} {n : Nat} {job : Job}
    (h : ((idle policy s).after hs).jobs[n]? = some job) :
    ∃ before, before ++ [.start job.time] <+: hs ∧ ((idle policy s).after before).jobs.length = n ∧
      job.progress.strategy =
        policy.select (job.time.toNat - toldTime ((idle policy s).after before).store) := by
  have hc : ((idle policy s).after hs).choices[n]? = some job.choice := by
    rw [choices, List.getElem?_map, h]
    rfl
  obtain ⟨hn, hget⟩ := List.getElem?_eq_some_iff.1 hc
  have hsplit : ((idle policy s).after hs).choices =
      ((idle policy s).after hs).choices.take n ++ job.choice ::
        ((idle policy s).after hs).choices.drop (n + 1) := by
    rw [← hget, List.getElem_cons_drop, List.take_append_drop]
  obtain ⟨before, hpre, hbefore, hchoice⟩ := choice_of_split rfl hsplit
  refine ⟨before, hpre, ?_, ?_⟩
  · have hlength := congrArg List.length hbefore
    rwa [choices, List.length_map, List.length_take, Nat.min_eq_left (Nat.le_of_lt hn)] at hlength
  · rw [← lastStamp_eq_toldTime]
    have hstrategy := congrArg Choice.strategy hchoice
    rwa [choiceAt, policy_after] at hstrategy

end Jobs

end PushKeeper.Fetch
