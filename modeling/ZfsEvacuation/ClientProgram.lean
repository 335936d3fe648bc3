import Mathlib.Tactic.Common

/-!
# Programs over a call interface

A client program is a tree of calls: it issues a call, is resumed with the response,
and ends with a value or an error. Nothing is fixed about what a call does; the answers
come from outside, so one program can be run to completion against a handler or be
interleaved, call by call, with other programs and with its surroundings.

`Follows` is the program logic: every call the program can issue is allowed by a
contract that may look at the calls and responses so far, whatever the responses are.
-/
namespace ZfsEvacuation.ClientProgram

/-- The calls a program may issue and the type each of them is answered with. -/
structure Interface where
  Call : Type
  Resp : Call → Type

inductive Program (I : Interface) (ε α : Type) where
  | ret (value : α)
  | fail (error : ε)
  | call (c : I.Call) (next : I.Resp c → Program I ε α)

/-- One call together with its response. -/
abbrev Event (I : Interface) := (c : I.Call) × I.Resp c

namespace Program
variable {I : Interface} {ε α β γ σ : Type}

def bind : Program I ε α → (α → Program I ε β) → Program I ε β
  | ret a, f => f a
  | fail e, _ => fail e
  | call c next, f => call c fun r => bind (next r) f

instance : Monad (Program I ε) where
  pure := ret
  bind := bind

instance : MonadExceptOf ε (Program I ε) where
  throw := fail
  tryCatch p handle :=
    let rec go
      | ret a => ret a
      | fail e => handle e
      | call c next => call c fun r => go (next r)
    go p

/-- Issue one call and return its response. -/
def perform (c : I.Call) : Program I ε (I.Resp c) := call c ret

def mapError (f : ε → ε) : Program I ε α → Program I ε α
  | ret a => ret a
  | fail e => fail (f e)
  | call c next => call c fun r => mapError f (next r)

/-- Run `cleanup` once the body is over, whether it returned or failed. -/
def andFinally (cleanup : Program I ε Unit) : Program I ε α → Program I ε α
  | ret a => bind cleanup fun _ => ret a
  | fail e => bind cleanup fun _ => fail e
  | call c next => call c fun r => andFinally cleanup (next r)

/-- The program has nothing left to do. -/
def finished : Program I ε α → Bool
  | call _ _ => false
  | _ => true

@[simp] theorem pure_eq (a : α) : (pure a : Program I ε α) = ret a := rfl

@[simp] theorem throw_eq (e : ε) : (throw e : Program I ε α) = fail e := rfl

@[simp] theorem bind_eq (p : Program I ε α) (f : α → Program I ε β) : p >>= f = bind p f := rfl

@[simp] theorem map_eq (f : α → β) (p : Program I ε α) : f <$> p = bind p fun a => ret (f a) := rfl

@[simp] theorem ret_bind (a : α) (f : α → Program I ε β) : bind (ret a) f = f a := rfl

@[simp] theorem fail_bind (e : ε) (f : α → Program I ε β) : bind (fail e) f = fail e := rfl

@[simp] theorem call_bind (c : I.Call) (next : I.Resp c → Program I ε α)
    (f : α → Program I ε β) : bind (call c next) f = call c fun r => bind (next r) f := rfl

@[simp] theorem bind_ret (p : Program I ε α) : bind p ret = p := by
  induction p with
  | ret a => rfl
  | fail e => rfl
  | call c next ih => simp only [call_bind, ih]

@[simp] theorem ret_tryCatch (a : α) (handle : ε → Program I ε α) :
    tryCatch (ret a) handle = ret a := rfl

@[simp] theorem fail_tryCatch (e : ε) (handle : ε → Program I ε α) :
    tryCatch (fail e) handle = handle e := rfl

@[simp] theorem call_tryCatch (c : I.Call) (next : I.Resp c → Program I ε α)
    (handle : ε → Program I ε α) :
    tryCatch (call c next) handle = call c fun r => tryCatch (next r) handle := rfl

/-! ## Contracts on the calls of a program -/

/-- Every call is allowed given the events before it (newest first), and a returned value
satisfies `post`. Nothing is asked of the responses, nor of a run that ends in an error. -/
def Follows (ok : List (Event I) → I.Call → Prop) (post : List (Event I) → α → Prop) :
    List (Event I) → Program I ε α → Prop
  | tr, ret a => post tr a
  | _, fail _ => True
  | tr, call c next => ok tr c ∧ ∀ r, Follows ok post (⟨c, r⟩ :: tr) (next r)

variable {ok ok' : List (Event I) → I.Call → Prop} {post post' : List (Event I) → α → Prop}
  {tr : List (Event I)}

@[simp] theorem follows_ret (a : α) :
    Follows ok post tr (ret a : Program I ε α) ↔ post tr a := Iff.rfl

@[simp] theorem follows_fail (e : ε) :
    Follows ok post tr (fail e : Program I ε α) ↔ True := Iff.rfl

@[simp] theorem follows_call (c : I.Call) (next : I.Resp c → Program I ε α) :
    Follows ok post tr (call c next) ↔
      ok tr c ∧ ∀ r, Follows ok post (⟨c, r⟩ :: tr) (next r) := Iff.rfl

@[simp] theorem follows_perform (c : I.Call) {post : List (Event I) → I.Resp c → Prop} :
    Follows ok post tr (perform c : Program I ε (I.Resp c)) ↔
      ok tr c ∧ ∀ r, post (⟨c, r⟩ :: tr) r := Iff.rfl

theorem follows_mono {p : Program I ε α} (h : Follows ok post tr p)
    (hpost : ∀ tr a, post tr a → post' tr a) : Follows ok post' tr p := by
  induction p generalizing tr with
  | ret a => exact hpost _ _ h
  | fail e => trivial
  | call c next ih => exact ⟨h.1, fun r => ih r (h.2 r)⟩

/-- A contract may be replaced by a weaker one. -/
theorem follows_weaken {p : Program I ε α} (h : Follows ok post tr p)
    (hok : ∀ tr c, ok tr c → ok' tr c) : Follows ok' post tr p := by
  induction p generalizing tr with
  | ret a => exact h
  | fail e => trivial
  | call c next ih => exact ⟨hok _ _ h.1, fun r => ih r (h.2 r)⟩

/-- The events so far are never forgotten. -/
theorem follows_suffix {p : Program I ε α} (h : Follows ok post tr p) :
    Follows ok (fun tr' a => post tr' a ∧ tr <:+ tr') tr p := by
  induction p generalizing tr with
  | ret a => exact ⟨h, List.suffix_refl tr⟩
  | fail e => trivial
  | call c next ih =>
    refine ⟨h.1, fun r => follows_mono (ih r (h.2 r)) fun tr' a hpost => ⟨hpost.1, ?_⟩⟩
    exact (List.suffix_cons _ _).trans hpost.2

/-- The sequencing rule, as an equivalence. -/
@[simp] theorem follows_bind (p : Program I ε α) (f : α → Program I ε β)
    {post : List (Event I) → β → Prop} :
    Follows ok post tr (bind p f) ↔
      Follows ok (fun tr a => Follows ok post tr (f a)) tr p := by
  induction p generalizing tr with
  | ret a => rfl
  | fail e => rfl
  | call c next ih => simp only [call_bind, follows_call, ih]

@[simp] theorem follows_mapError (g : ε → ε) (p : Program I ε α) :
    Follows ok post tr (mapError g p) ↔ Follows ok post tr p := by
  induction p generalizing tr with
  | ret a => rfl
  | fail e => rfl
  | call c next ih => simp only [mapError, follows_call, ih]

/-- The cleanup may follow any part of the body, so it is entered with what every call of
the body preserves. -/
theorem follows_andFinally {cleanup : Program I ε Unit} {p : Program I ε α}
    (body : List (Event I) → I.Call → Prop) (inv : List (Event I) → Prop) (hinv : inv tr)
    (hstep : ∀ tr c r, inv tr → body tr c → inv (⟨c, r⟩ :: tr))
    (hok : ∀ tr c, body tr c → ok tr c)
    (hclean : ∀ tr, inv tr → Follows ok (fun _ _ => True) tr cleanup)
    (h : Follows body (fun _ _ => True) tr p) :
    Follows ok (fun _ _ => True) tr (andFinally cleanup p) := by
  induction p generalizing tr with
  | ret a => simpa [andFinally] using hclean tr hinv
  | fail e => simpa [andFinally] using hclean tr hinv
  | call c next ih => exact ⟨hok _ _ h.1, fun r => ih r (hstep _ _ r hinv h.1) (h.2 r)⟩

/-- A handler may start after any part of the body, so it is entered with what every call
of the body preserves. -/
theorem follows_tryCatch {p : Program I ε α} {handle : ε → Program I ε α}
    (body : List (Event I) → I.Call → Prop) (inv : List (Event I) → Prop) (hinv : inv tr)
    (hstep : ∀ tr c r, inv tr → body tr c → inv (⟨c, r⟩ :: tr))
    (hok : ∀ tr c, body tr c → ok tr c) (h : Follows body post tr p)
    (hhandle : ∀ tr e, inv tr → Follows ok post tr (handle e)) :
    Follows ok post tr (tryCatch p handle) := by
  induction p generalizing tr with
  | ret a => exact h
  | fail e => exact hhandle tr e hinv
  | call c next ih => exact ⟨hok _ _ h.1, fun r => ih r (hstep _ _ r hinv h.1) (h.2 r)⟩

/-! ## Errors -/

/-- Whatever the answers are, an error the program ends in is one of `err`, given the events
before it. -/
def Raises (err : List (Event I) → ε → Prop) : List (Event I) → Program I ε α → Prop
  | _, ret _ => True
  | tr, fail e => err tr e
  | tr, call c next => ∀ r, Raises err (⟨c, r⟩ :: tr) (next r)

section Raises
variable {err err' : List (Event I) → ε → Prop}

theorem raises_mono {p : Program I ε α} (h : Raises err tr p)
    (herr : ∀ tr e, err tr e → err' tr e) : Raises err' tr p := by
  induction p generalizing tr with
  | ret a => trivial
  | fail e => exact herr _ _ h
  | call c next ih => exact fun r => ih r (h r)

theorem raises_bind {p : Program I ε α} {f : α → Program I ε β} (h : Raises err tr p)
    (hf : ∀ tr a, Raises err tr (f a)) : Raises err tr (bind p f) := by
  induction p generalizing tr with
  | ret a => exact hf tr a
  | fail e => exact h
  | call c next ih => exact fun r => ih r (h r)

theorem raises_mapError {g : ε → ε} {p : Program I ε α}
    (h : Raises (fun tr e => err tr (g e)) tr p) : Raises err tr (mapError g p) := by
  induction p generalizing tr with
  | ret a => trivial
  | fail e => exact h
  | call c next ih => exact fun r => ih r (h r)

/-- What is raised by the body is handled. -/
theorem raises_tryCatch {p : Program I ε α} {handle : ε → Program I ε α}
    (h : ∀ tr e, Raises err tr (handle e)) : Raises err tr (tryCatch p handle) := by
  induction p generalizing tr with
  | ret a => trivial
  | fail e => exact h tr e
  | call c next ih => exact fun r => ih r

/-- The cleanup passes an error on, with its own calls behind it. -/
theorem raises_andFinally {cleanup : Program I ε Unit} {p : Program I ε α} {once : ε → Prop}
    (h : Raises (fun _ => once) tr p) (hclean : ∀ tr, Raises err tr cleanup)
    (herr : ∀ tr e, once e → err tr e) : Raises err tr (andFinally cleanup p) := by
  induction p generalizing tr with
  | ret a => exact raises_bind (hclean tr) fun _ _ => trivial
  | fail e => exact raises_bind (hclean tr) fun tr' _ => herr tr' e h
  | call c next ih => exact fun r => ih r (h r)

end Raises

/-! ## Uninterrupted execution -/

/-- Run the program to its end against a handler that answers from a state. -/
def exec (handle : (c : I.Call) → σ → I.Resp c × σ) : Program I ε α → σ → Except ε α × σ
  | ret a, s => (.ok a, s)
  | fail e, s => (.error e, s)
  | call c next, s => exec handle (next (handle c s).1) (handle c s).2

variable {handle : (c : I.Call) → σ → I.Resp c × σ}

@[simp] theorem exec_ret (a : α) (s : σ) :
    exec handle (ret a : Program I ε α) s = (.ok a, s) := rfl

@[simp] theorem exec_fail (e : ε) (s : σ) :
    exec handle (fail e : Program I ε α) s = (.error e, s) := rfl

@[simp] theorem exec_call (c : I.Call) (next : I.Resp c → Program I ε α) (s : σ) :
    exec handle (call c next) s = exec handle (next (handle c s).1) (handle c s).2 := rfl

/-- A sequence runs its second part from where the first one ended. -/
theorem exec_bind (p : Program I ε α) (f : α → Program I ε β) (s : σ) :
    exec handle (bind p f) s =
      match exec handle p s with
      | (.ok a, s') => exec handle (f a) s'
      | (.error e, s') => (.error e, s') := by
  induction p generalizing s with
  | ret a => rfl
  | fail e => rfl
  | call c next ih => simp only [call_bind, exec_call, ih]

theorem exec_bind_ok {p : Program I ε α} {f : α → Program I ε β} {a : α} {s s' : σ}
    (h : exec handle p s = (.ok a, s')) :
    exec handle (bind p f) s = exec handle (f a) s' := by rw [exec_bind, h]

theorem exec_bind_error {p : Program I ε α} {f : α → Program I ε β} {e : ε} {s s' : σ}
    (h : exec handle p s = (.error e, s')) :
    exec handle (bind p f) s = (.error e, s') := by rw [exec_bind, h]

/-- How an uninterrupted execution ends: with a value that satisfies `ok` in the last state,
or with an error that satisfies `err`. -/
def Ends (handle : (c : I.Call) → σ → I.Resp c × σ) (ok : α → σ → Prop) (err : ε → σ → Prop) :
    Program I ε α → σ → Prop
  | ret a, s => ok a s
  | fail e, s => err e s
  | call c next, s => Ends handle ok err (next (handle c s).1) (handle c s).2

section Ends
variable {ok' : α → σ → Prop} {out : β → σ → Prop} {err : ε → σ → Prop} {s : σ}

@[simp] theorem ends_ret (a : α) :
    Ends handle ok' err (ret a : Program I ε α) s ↔ ok' a s := Iff.rfl

@[simp] theorem ends_fail (e : ε) :
    Ends handle ok' err (fail e : Program I ε α) s ↔ err e s := Iff.rfl

@[simp] theorem ends_call (c : I.Call) (next : I.Resp c → Program I ε α) :
    Ends handle ok' err (call c next) s ↔
      Ends handle ok' err (next (handle c s).1) (handle c s).2 := Iff.rfl

@[simp] theorem ends_bind (p : Program I ε α) (f : α → Program I ε β) :
    Ends handle out err (bind p f) s ↔
      Ends handle (fun a s => Ends handle out err (f a) s) err p s := by
  induction p generalizing s with
  | ret a => rfl
  | fail e => rfl
  | call c next ih => simp only [call_bind, ends_call, ih]

@[simp] theorem ends_mapError (g : ε → ε) (p : Program I ε α) :
    Ends handle ok' err (mapError g p) s ↔ Ends handle ok' (fun e s => err (g e) s) p s := by
  induction p generalizing s with
  | ret a => rfl
  | fail e => rfl
  | call c next ih => simp only [mapError, ends_call, ih]

theorem ends_mono {ok'' : α → σ → Prop} {err' : ε → σ → Prop} {p : Program I ε α}
    (h : Ends handle ok' err p s) (hok : ∀ a s, ok' a s → ok'' a s)
    (herr : ∀ e s, err e s → err' e s) : Ends handle ok'' err' p s := by
  induction p generalizing s with
  | ret a => exact hok _ _ h
  | fail e => exact herr _ _ h
  | call c next ih => exact ih _ h

/-- Where the execution ends, whichever way. -/
theorem Ends.exec {post : σ → Prop} {p : Program I ε α}
    (h : Ends handle (fun _ s => post s) (fun _ s => post s) p s) : post (exec handle p s).2 := by
  induction p generalizing s with
  | ret a => exact h
  | fail e => exact h
  | call c next ih => exact ih _ h

end Ends

/-! ## One failure -/

/-- A state under a handler that fails once: how many fallible calls still succeed before, and
which call has failed. -/
structure Once (I : Interface) (σ : Type) where
  state : σ
  left : Nat
  hit : Option I.Call

/-- Answer like `handle`, but one of the fallible calls like `broken`. -/
def failOnce (handle broken : (c : I.Call) → σ → I.Resp c × σ) (fallible : I.Call → Bool)
    (c : I.Call) (s : Once I σ) : I.Resp c × Once I σ :=
  if fallible c && s.hit.isNone then
    match s.left with
    | 0 => ((broken c s.state).1, ⟨(broken c s.state).2, 0, some c⟩)
    | n + 1 => ((handle c s.state).1, ⟨(handle c s.state).2, n, none⟩)
  else ((handle c s.state).1, { s with state := (handle c s.state).2 })

section FailOnce
variable {broken : (c : I.Call) → σ → I.Resp c × σ} {fallible : I.Call → Bool} {s : Once I σ}
  {err : ε → Once I σ → Prop} {ok' : α → Once I σ → Prop}

/-- A call succeeds, or fails if none has failed before. -/
theorem ends_failOnce_call {c : I.Call} {next : I.Resp c → Program I ε α}
    (hgo : ∀ left, Ends (failOnce handle broken fallible) ok' err (next (handle c s.state).1)
      ⟨(handle c s.state).2, left, s.hit⟩)
    (hfail : fallible c = true → s.hit = none → Ends (failOnce handle broken fallible) ok' err
      (next (broken c s.state).1) ⟨(broken c s.state).2, 0, some c⟩) :
    Ends (failOnce handle broken fallible) ok' err (call c next) s := by
  rw [ends_call]
  unfold failOnce
  split_ifs with hc
  · obtain ⟨hfallible, hnone⟩ := Bool.and_eq_true_iff.mp hc
    have hhit : s.hit = none := Option.isNone_iff_eq_none.mp hnone
    cases hleft : s.left with
    | zero => exact hfail hfallible hhit
    | succ n =>
      have hnext := hgo n
      rw [hhit] at hnext
      exact hnext
  · exact hgo s.left

theorem ends_failOnce_sound {c : I.Call} {next : I.Resp c → Program I ε α}
    (h : fallible c = false) : Ends (failOnce handle broken fallible) ok' err (call c next) s ↔
      Ends (failOnce handle broken fallible) ok' err (next (handle c s.state).1)
        { s with state := (handle c s.state).2 } := by
  simp [failOnce, h]

/-- After the failure, the handler is the one that never fails. -/
theorem ends_failOnce_hit {c : I.Call} (h : s.hit = some c) {p : Program I ε α}
    {ok'' : α → σ → Prop} {err' : ε → σ → Prop} :
    Ends (failOnce handle broken fallible) (fun a s => ok'' a s.state) (fun e s => err' e s.state)
      p s ↔ Ends handle ok'' err' p s.state := by
  induction p generalizing s with
  | ret a => rfl
  | fail e => rfl
  | call c' next ih =>
    rw [ends_call, ends_call, failOnce, h, if_neg (by simp)]
    exact ih _ rfl

end FailOnce

end Program

end ZfsEvacuation.ClientProgram
