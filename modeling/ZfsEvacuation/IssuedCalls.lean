import ZfsEvacuation.ClientProgram

/-!
# The calls of a program

What a program can ask for at all, whatever it is answered. The rules need no trace, so a bound
on the calls of a program follows its structure.
-/
namespace ZfsEvacuation.ClientProgram.Program

variable {I : Interface} {ε α β : Type} {ok : I.Call → Prop}

/-- Every call that the program can issue is one of `ok`. -/
def Issues (ok : I.Call → Prop) : Program I ε α → Prop
  | ret _ => True
  | fail _ => True
  | call c next => ok c ∧ ∀ r, Issues ok (next r)

@[simp] theorem issues_ret (a : α) : Issues ok (ret a : Program I ε α) := trivial

@[simp] theorem issues_fail (e : ε) : Issues ok (fail e : Program I ε α) := trivial

@[simp] theorem issues_call (c : I.Call) (next : I.Resp c → Program I ε α) :
    Issues ok (call c next) ↔ ok c ∧ ∀ r, Issues ok (next r) := Iff.rfl

theorem issues_bind {p : Program I ε α} {f : α → Program I ε β} (h : Issues ok p)
    (hf : ∀ a, Issues ok (f a)) : Issues ok (bind p f) := by
  induction p with
  | ret a => exact hf a
  | fail e => trivial
  | call c next ih => exact ⟨h.1, fun r => ih r (h.2 r)⟩

@[simp] theorem issues_mapError {g : ε → ε} {p : Program I ε α} :
    Issues ok (mapError g p) ↔ Issues ok p := by
  induction p with
  | ret a => rfl
  | fail e => rfl
  | call c next ih => simp only [mapError, issues_call, ih]

theorem issues_andFinally {cleanup : Program I ε Unit} {p : Program I ε α} (h : Issues ok p)
    (hclean : Issues ok cleanup) : Issues ok (andFinally cleanup p) := by
  induction p with
  | ret a => exact issues_bind hclean fun _ => trivial
  | fail e => exact issues_bind hclean fun _ => trivial
  | call c next ih => exact ⟨h.1, fun r => ih r (h.2 r)⟩

theorem issues_tryCatch {p : Program I ε α} {handle : ε → Program I ε α} (h : Issues ok p)
    (hhandle : ∀ e, Issues ok (handle e)) : Issues ok (tryCatch p handle) := by
  induction p with
  | ret a => trivial
  | fail e => exact hhandle e
  | call c next ih => exact ⟨h.1, fun r => ih r (h.2 r)⟩

/-- Whatever the program is answered, what it returns meets the condition. -/
def Returns (post : α → Prop) : Program I ε α → Prop
  | ret a => post a
  | fail _ => True
  | call _ next => ∀ r, Returns post (next r)

theorem returns_true (p : Program I ε α) : Returns (fun _ => True) p := by
  induction p with
  | ret a => trivial
  | fail e => trivial
  | call c next ih => exact ih

theorem returns_bind {post : α → Prop} {post' : β → Prop} {p : Program I ε α}
    {f : α → Program I ε β} (h : Returns post p) (hf : ∀ a, post a → Returns post' (f a)) :
    Returns post' (bind p f) := by
  induction p with
  | ret a => exact hf a h
  | fail e => trivial
  | call c next ih => exact fun r => ih r (h r)

theorem returns_bind_of {post : β → Prop} {p : Program I ε α} {f : α → Program I ε β}
    (hf : ∀ a, Returns post (f a)) : Returns post (bind p f) := by
  induction p with
  | ret a => exact hf a
  | fail e => trivial
  | call c next ih => exact fun r => ih r

theorem issues_bind_returns {post : α → Prop} {p : Program I ε α} {f : α → Program I ε β}
    (h : Issues ok p) (hret : Returns post p) (hf : ∀ a, post a → Issues ok (f a)) :
    Issues ok (bind p f) := by
  induction p with
  | ret a => exact hf a hret
  | fail e => trivial
  | call c next ih => exact ⟨h.1, fun r => ih r (h.2 r) (hret r)⟩

/-- What holds of the events from here on turns the bound into a contract. -/
theorem Issues.follows (inv : List (Event I) → Prop) {ret : α → Prop}
    {contract : List (Event I) → I.Call → Prop} {post : List (Event I) → α → Prop}
    {p : Program I ε α} {tr : List (Event I)} (h : Issues ok p) (hret : Returns ret p)
    (hinv : ∀ tr e, inv tr → inv (e :: tr)) (hok : ∀ tr c, inv tr → ok c → contract tr c)
    (hpost : ∀ tr a, inv tr → ret a → post tr a) (htr : inv tr) : Follows contract post tr p := by
  induction p generalizing tr with
  | ret a => exact hpost tr a htr hret
  | fail e => trivial
  | call c next ih => exact ⟨hok tr c htr h.1, fun r => ih r (h.2 r) (hret r) (hinv tr _ htr)⟩

/-- What each of the calls keeps of the state, an execution keeps, whichever way it ends. -/
theorem Issues.ends {σ : Type} {handle : (c : I.Call) → σ → I.Resp c × σ} {inv : σ → Prop}
    {p : Program I ε α} {s : σ} (h : Issues ok p)
    (hstep : ∀ c s, ok c → inv s → inv (handle c s).2) (hinv : inv s) :
    Ends handle (fun _ => inv) (fun _ => inv) p s := by
  induction p generalizing s with
  | ret a => exact hinv
  | fail e => exact hinv
  | call c next ih => exact ih _ (h.2 _) (hstep c s h.1 hinv)

/-! ## How a program ends -/

/-- Whatever has happened before and whatever the program is answered, it ends like this or in
an error. -/
def Concludes (post : List (Event I) → α → Prop) (p : Program I ε α) : Prop :=
  ∀ tr, Follows (fun _ _ => True) post tr p

section Concludes
variable {post : List (Event I) → α → Prop} {after : List (Event I) → β → Prop}
  {p : Program I ε α}

theorem concludes_ret {a : α} (h : ∀ tr, post tr a) : Concludes post (ret a : Program I ε α) := h

theorem concludes_true (p : Program I ε α) : Concludes (fun _ _ => True) p := by
  intro tr
  induction p generalizing tr with
  | ret a => trivial
  | fail e => trivial
  | call c next ih => exact ⟨trivial, fun r => ih r _⟩

theorem concludes_bind {f : α → Program I ε β} (h : Concludes post p)
    (hf : ∀ tr a, post tr a → Follows (fun _ _ => True) after tr (f a)) :
    Concludes after (bind p f) := by
  intro tr
  rw [follows_bind]
  exact follows_mono (h tr) hf

/-- Only the last part of a sequence says how it ends. -/
theorem concludes_bind_of {f : α → Program I ε β} (hf : ∀ a, Concludes after (f a)) :
    Concludes after (bind p f) :=
  concludes_bind (concludes_true p) fun tr a _ => hf a tr

/-- A cleanup does not undo what has happened. -/
theorem concludes_andFinally {cleanup : Program I ε Unit} (h : Concludes post p)
    (hmono : ∀ tr tr' a, tr <:+ tr' → post tr a → post tr' a) :
    Concludes post (andFinally cleanup p) := by
  intro tr
  have hafter : ∀ tr a, post tr a → Follows (fun _ _ => True) post tr
      (bind cleanup fun _ => ret a : Program I ε α) := by
    intro tr a ha
    rw [follows_bind]
    exact follows_mono (follows_suffix (concludes_true cleanup tr))
      fun tr' _ hs => hmono tr tr' a hs.2 ha
  have hbody := h tr
  clear h
  induction p generalizing tr with
  | ret a => exact hafter tr a hbody
  | fail e =>
    show Follows (fun _ _ => True) post tr (bind cleanup fun _ => fail e)
    rw [follows_bind]
    exact follows_mono (concludes_true cleanup tr) fun _ _ _ => trivial
  | call c next ih => exact ⟨trivial, fun r => ih r _ (hbody.2 r)⟩

theorem concludes_tryCatch {handle : ε → Program I ε α} (h : Concludes post p)
    (hhandle : ∀ e, Concludes post (handle e)) : Concludes post (tryCatch p handle) := by
  intro tr
  have hbody := h tr
  clear h
  induction p generalizing tr with
  | ret a => exact hbody
  | fail e => exact hhandle e tr
  | call c next ih => exact ⟨trivial, fun r => ih r _ (hbody.2 r)⟩

end Concludes

end ZfsEvacuation.ClientProgram.Program
