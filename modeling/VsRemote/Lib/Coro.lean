import Mathlib.Logic.Basic

/-! Programs that suspend on operations. A coroutine is the tree of its
suspensions, so whatever holds along every branch holds in every schedule. -/

/-- The operations a program may suspend on and what each is resumed with. -/
structure Signature where
  Op : Type
  Res : Op → Type

inductive Coro (S : Signature) (α : Type) : Type where
  | pure (a : α)
  | call (o : S.Op) (k : S.Res o → Coro S α)

namespace Coro

variable {S : Signature} {α β ε : Type}

def bind : Coro S α → (α → Coro S β) → Coro S β
  | .pure a, f => f a
  | .call o k, f => .call o (fun r => (k r).bind f)

instance : Monad (Coro S) where
  pure := .pure
  bind := bind

@[simp] theorem pure_bind' (a : α) (f : α → Coro S β) : (Coro.pure a >>= f) = f a := rfl

@[simp] theorem call_bind (o : S.Op) (k : S.Res o → Coro S α) (f : α → Coro S β) :
    (Coro.call o k >>= f) = .call o (fun r => k r >>= f) := rfl

theorem bind_pure' (p : Coro S α) : (p >>= Coro.pure) = p := by
  induction p with
  | pure a => rfl
  | call o k ih => exact congrArg (Coro.call o) (funext ih)

theorem bind_assoc' {γ : Type} (p : Coro S α) (f : α → Coro S β) (g : β → Coro S γ) :
    (p >>= f >>= g) = p >>= fun a => f a >>= g := by
  induction p with
  | pure a => rfl
  | call o k ih => exact congrArg (Coro.call o) (funext ih)

instance : LawfulMonad (Coro S) :=
  LawfulMonad.mk' (Coro S) bind_pure' (fun _ _ => rfl) bind_assoc'

def op (o : S.Op) : Coro S (S.Res o) := .call o .pure

structure Event (S : Signature) where
  op : S.Op
  res : S.Res op

/-- `p` becomes `q` by completing the operations of the list in order. -/
inductive Follows : Coro S α → List (Event S) → Coro S α → Prop where
  | nil (p : Coro S α) : Follows p [] p
  | cons {o : S.Op} {k : S.Res o → Coro S α} (r : S.Res o) {tr : List (Event S)} {q : Coro S α} :
      Follows (k r) tr q → Follows (.call o k) (⟨o, r⟩ :: tr) q

theorem Follows.snoc {p : Coro S α} {tr : List (Event S)} {o : S.Op} {k : S.Res o → Coro S α}
    (h : Follows p tr (.call o k)) (r : S.Res o) : Follows p (tr ++ [⟨o, r⟩]) (k r) := by
  generalize hq : Coro.call o k = q at h
  induction h with
  | nil p => subst hq; exact .cons r (.nil _)
  | cons r' _ ih => exact .cons r' (ih hq)

/-- The trace determines what is left. -/
theorem Follows.unique {p q q' : Coro S α} {tr : List (Event S)} (hf : Follows p tr q) (hf' : Follows p tr q') :
    q = q' := by
  induction hf with
  | nil p => cases hf'; rfl
  | cons r _ ih =>
    cases hf' with
    | cons _ hrest => exact ih hrest

theorem Follows.split {p q : Coro S α} {tr tr' : List (Event S)} (hf : Follows p (tr ++ tr') q) :
    ∃ mid, Follows p tr mid ∧ Follows mid tr' q := by
  induction tr generalizing p with
  | nil => exact ⟨p, .nil p, hf⟩
  | cons e tr ih =>
    cases hf with
    | cons r hrest =>
      obtain ⟨mid, hmid, hlast⟩ := ih hrest
      exact ⟨mid, .cons r hmid, hlast⟩

/-- The next event is a response to the operation that the program performs. -/
theorem Follows.op_next {p q : Coro S α} {o : S.Op} {k : S.Res o → Coro S α} {tr rest : List (Event S)} {e : Event S}
    (hf : Follows p tr (.call o k)) (hf' : Follows p (tr ++ e :: rest) q) : e.op = o := by
  obtain ⟨mid, hmid, hlast⟩ := hf'.split
  obtain rfl := hf.unique hmid
  cases hlast
  rfl

theorem Follows.exists_call {p q : Coro S α} {tr : List (Event S)} {e : Event S} (hf : Follows p tr q) (hmem : e ∈ tr) :
    ∃ before k, before <+: tr ∧ Follows p before (.call e.op k) := by
  obtain ⟨before, after, rfl⟩ := List.append_of_mem hmem
  obtain ⟨mid, hmid, hlast⟩ := hf.split
  cases hlast with
  | cons r _ => exact ⟨before, _, List.prefix_append _ _, hmid⟩

/-- What is assumed of the responses and required of the operations of a
program, with a ghost state threaded along its trace. -/
structure Monitor (S : Signature) (G : Type) where
  pre : G → S.Op → Prop
  allows : G → (o : S.Op) → S.Res o → Prop
  next : G → (o : S.Op) → S.Res o → G

variable {G : Type}

namespace Monitor

def run (M : Monitor S G) : G → List (Event S) → G
  | g, [] => g
  | g, e :: tr => M.run (M.next g e.op e.res) tr

def Allows (M : Monitor S G) : G → List (Event S) → Prop
  | _, [] => True
  | g, e :: tr => M.allows g e.op e.res ∧ M.Allows (M.next g e.op e.res) tr

def Meets (M : Monitor S G) : G → List (Event S) → Prop
  | _, [] => True
  | g, e :: tr => M.pre g e.op ∧ M.Meets (M.next g e.op e.res) tr

/-- What must hold for `o` to be performed and every allowed response to lead to `Q`. -/
def step (M : Monitor S G) (o : S.Op) (Q : S.Res o → G → Prop) (g : G) : Prop :=
  M.pre g o ∧ ∀ r, M.allows g o r → Q r (M.next g o r)

variable (M : Monitor S G)

theorem run_append (g : G) (tr tr' : List (Event S)) :
    M.run g (tr ++ tr') = M.run (M.run g tr) tr' := by
  induction tr generalizing g with
  | nil => rfl
  | cons e tr ih => exact ih _

theorem allows_append {g : G} {tr tr' : List (Event S)} :
    M.Allows g (tr ++ tr') ↔ M.Allows g tr ∧ M.Allows (M.run g tr) tr' := by
  induction tr generalizing g with
  | nil => simp [Allows, run]
  | cons e tr ih => simp [Allows, run, ih, and_assoc]

theorem allows_of_forall (h : ∀ g o r, M.allows g o r) (g : G) (tr : List (Event S)) : M.Allows g tr := by
  induction tr generalizing g with
  | nil => trivial
  | cons e tr ih => exact ⟨h g e.op e.res, ih _⟩

/-- Every response is allowed, and the ghost state is the trace itself. -/
def log (pre : List (Event S) → S.Op → Prop) : Monitor S (List (Event S)) where
  pre := pre
  allows _ _ _ := True
  next g o r := g ++ [⟨o, r⟩]

theorem run_log (pre : List (Event S) → S.Op → Prop) (g tr : List (Event S)) : (log pre).run g tr = g ++ tr := by
  induction tr generalizing g with
  | nil => exact (List.append_nil g).symm
  | cons e tr ih =>
    have hrest := ih (g ++ [e])
    rw [List.append_assoc] at hrest
    exact hrest

end Monitor

/-- Weakest precondition over every allowed response. The tree is well
founded, so this is total: each branch ends in a state with `Q`. -/
def wp (M : Monitor S G) : Coro S α → (α → G → Prop) → G → Prop
  | .pure a, Q, g => Q a g
  | .call o k, Q, g => M.pre g o ∧ ∀ r, M.allows g o r → (k r).wp M Q (M.next g o r)

variable (M : Monitor S G)

@[simp] theorem wp_pure (a : α) (Q : α → G → Prop) :
    (Coro.pure a : Coro S α).wp M Q = Q a := rfl

@[simp] theorem wp_pure' (a : α) (Q : α → G → Prop) :
    (Pure.pure a : Coro S α).wp M Q = Q a := rfl

@[simp] theorem wp_op (o : S.Op) (Q : S.Res o → G → Prop) :
    (op o).wp M Q = M.step o Q := rfl

theorem wp_call (o : S.Op) (k : S.Res o → Coro S α) (Q : α → G → Prop) :
    (Coro.call o k).wp M Q =
      fun g => M.pre g o ∧ ∀ r, M.allows g o r → (k r).wp M Q (M.next g o r) := rfl

@[simp] theorem wp_bind (p : Coro S α) (f : α → Coro S β) (Q : β → G → Prop) :
    (p >>= f).wp M Q = p.wp M (fun a => (f a).wp M Q) := by
  induction p with
  | pure a => rfl
  | call o k ih => simp only [call_bind, wp_call, ih]

theorem wp_mono {p : Coro S α} {Q Q' : α → G → Prop} {g : G}
    (h : p.wp M Q g) (hQ : ∀ a g, Q a g → Q' a g) : p.wp M Q' g := by
  induction p generalizing g with
  | pure a => exact hQ _ _ h
  | call o k ih => exact ⟨h.1, fun r hr => ih r (h.2 r hr)⟩

/-- Adequacy: along a trace whose responses are allowed the requirements are
met and the rest of the program keeps its precondition. -/
theorem wp_follows {p q : Coro S α} {tr : List (Event S)} {Q : α → G → Prop} {g : G}
    (h : p.wp M Q g) (hf : Follows p tr q) (ha : M.Allows g tr) :
    M.Meets g tr ∧ q.wp M Q (M.run g tr) := by
  induction hf generalizing g with
  | nil p => exact ⟨trivial, h⟩
  | cons r _ ih =>
    have hh := ih (h.2 r ha.1) ha.2
    exact ⟨⟨h.1, hh.1⟩, hh.2⟩

theorem wp_follows_pure {p : Coro S α} {a : α} {tr : List (Event S)} {Q : α → G → Prop} {g : G}
    (h : p.wp M Q g) (hf : Follows p tr (.pure a)) (ha : M.Allows g tr) : Q a (M.run g tr) :=
  (wp_follows M h hf ha).2

theorem pre_follows_call {p : Coro S α} {o : S.Op} {k : S.Res o → Coro S α}
    {tr : List (Event S)} {Q : α → G → Prop} {g : G}
    (h : p.wp M Q g) (hf : Follows p tr (.call o k)) (ha : M.Allows g tr) :
    M.pre (M.run g tr) o :=
  (wp_follows M h hf ha).2.1

/-! Programs that may raise: the rules of `ExceptT`. -/

section Raising

variable (Q : Except ε α → G → Prop)

@[simp] theorem wp_run_pure (a : α) :
    (Pure.pure a : ExceptT ε (Coro S) α).run.wp M Q = Q (.ok a) := rfl

@[simp] theorem wp_run_throw (e : ε) :
    (throw e : ExceptT ε (Coro S) α).run.wp M Q = Q (.error e) := rfl

@[simp] theorem wp_run_bind (x : ExceptT ε (Coro S) β) (f : β → ExceptT ε (Coro S) α) :
    (x >>= f).run.wp M Q =
      x.run.wp M (fun
        | .ok a => (f a).run.wp M Q
        | .error e => Q (.error e)) := by
  rw [ExceptT.run_bind, wp_bind]
  congr 1
  funext r
  cases r <;> rfl

@[simp] theorem wp_run_tryCatch (x : ExceptT ε (Coro S) α) (f : ε → ExceptT ε (Coro S) α) :
    (tryCatch x f).run.wp M Q =
      x.run.wp M (fun
        | .ok a => Q (.ok a)
        | .error e => (f e).run.wp M Q) := by
  change ((x.run : Coro S (Except ε α)) >>= _).wp M Q = _
  rw [wp_bind]
  congr 1
  funext r
  cases r <;> rfl

@[simp] theorem wp_run_lift (p : Coro S α) :
    (ExceptT.lift p : ExceptT ε (Coro S) α).run.wp M Q = p.wp M (fun a => Q (.ok a)) := by
  change (Functor.map Except.ok p).wp M Q = _
  rw [← bind_pure_comp, wp_bind]
  rfl

@[simp] theorem wp_run_mk (p : Coro S (Except ε α)) :
    (ExceptT.mk p).run.wp M Q = p.wp M Q := rfl

@[simp] theorem wp_run_ite (c : Prop) [Decidable c] (x y : ExceptT ε (Coro S) α) :
    (if c then x else y).run.wp M Q = if c then x.run.wp M Q else y.run.wp M Q := by
  split <;> rfl

end Raising

/-- `try: x finally: fin`, for a clean-up that does not raise. -/
def tryFinally (x : ExceptT ε (Coro S) α) (fin : Coro S Unit) : ExceptT ε (Coro S) α :=
  ExceptT.mk (Coro.bind x.run fun r => Coro.bind fin fun _ => .pure r)

@[simp] theorem wp_run_tryFinally (x : ExceptT ε (Coro S) α) (fin : Coro S Unit)
    (Q : Except ε α → G → Prop) :
    (tryFinally x fin).run.wp M Q = x.run.wp M (fun r => fin.wp M (fun _ => Q r)) := by
  change ((x.run : Coro S (Except ε α)) >>= fun r => fin >>= fun _ => Coro.pure r).wp M Q = _
  simp only [wp_bind, wp_pure]

end Coro
