import Mathlib.Data.List.Basic
import Mathlib.Logic.Basic

/-! Programs that ask their surroundings questions: what can be asked, answered and returned in one
conversation, rules for what holds of every conversation, and the race against a signal. -/
namespace RatatoskrVault.Lib

variable {Q S : Type} {A : Q → Type} {B : S → Type} {ε α β : Type}

/-- A program that ends in a value or an error, or asks a question and goes on with its answer. -/
inductive Asks (Q : Type) (A : Q → Type) (ε α : Type) where
  | done (a : α)
  | fail (e : ε)
  | ask (q : Q) (k : A q → Asks Q A ε α)

/-- A question that was asked, and its answer unless the asker was dropped before it came. -/
abbrev Event (Q : Type) (A : Q → Type) := (q : Q) × Option (A q)

/-- What the surroundings answer after a conversation. -/
abbrev Surroundings (Q : Type) (A : Q → Type) := List (Event Q A) → (q : Q) → Option (A q)

section Order

variable {E : Type} {opens closes : E → Prop} {s t : List E}

/-- Every event that opens something is followed by one that closes it. -/
def FollowedBy (opens closes : E → Prop) (t : List E) : Prop :=
  ∀ before e after, t = before ++ e :: after → opens e → ∃ c ∈ after, closes c

/-- Every event that is guarded comes after one that allows it. -/
def PrecededBy (guarded allows : E → Prop) (t : List E) : Prop :=
  ∀ before e after, t = before ++ e :: after → guarded e → ∃ a ∈ before, allows a

theorem followedBy_of_forall (h : ∀ e ∈ t, ¬opens e) : FollowedBy opens closes t := by
  intro before e after ht hopens
  have hmem : e ∈ t := by simp [ht]
  exact absurd hopens (h e hmem)

theorem FollowedBy.append (hs : FollowedBy opens closes s) (ht : FollowedBy opens closes t) :
    FollowedBy opens closes (s ++ t) := by
  intro before e after hsplit hopens
  obtain ⟨rest, hbefore, ht'⟩ | ⟨rest, hs', hafter⟩ := List.append_eq_append_iff.mp hsplit
  · exact ht rest e after ht' hopens
  · cases rest with
    | nil => exact ht [] e after (by simpa using hafter.symm) hopens
    | cons e' rest =>
      obtain ⟨rfl, rfl⟩ := List.cons.inj hafter
      obtain ⟨c, hc, hcloses⟩ := hs before e rest hs' hopens
      exact ⟨c, List.mem_append_left t hc, hcloses⟩

/-- What closes everything may come last. -/
theorem FollowedBy.of_mem (ht : FollowedBy opens closes t) (hmem : ∃ c ∈ t, closes c) :
    FollowedBy opens closes (s ++ t) := by
  intro before e after hsplit hopens
  obtain ⟨rest, hbefore, ht'⟩ | ⟨rest, hs', hafter⟩ := List.append_eq_append_iff.mp hsplit
  · exact ht rest e after ht' hopens
  · cases rest with
    | nil => exact ht [] e after (by simpa using hafter.symm) hopens
    | cons e' rest =>
      obtain ⟨rfl, rfl⟩ := List.cons.inj hafter
      obtain ⟨c, hc, hcloses⟩ := hmem
      exact ⟨c, List.mem_append_right rest hc, hcloses⟩

end Order

namespace Asks

def bind : Asks Q A ε α → (α → Asks Q A ε β) → Asks Q A ε β
  | done a, f => f a
  | fail e, _ => fail e
  | ask q k, f => ask q fun a => (k a).bind f

/-- What `p` ends in, as a value. -/
def attempt : Asks Q A ε α → Asks Q A ε (Except ε α)
  | done a => done (.ok a)
  | fail e => done (.error e)
  | ask q k => ask q fun a => (k a).attempt

instance : Monad (Asks Q A ε) where
  pure := done
  bind := bind

instance : MonadExcept ε (Asks Q A ε) where
  throw := fail
  tryCatch p handler := p.attempt.bind fun
    | .ok a => done a
    | .error e => handler e

theorem map_id (p : Asks Q A ε α) : id <$> p = p := by
  induction p with
  | done a => rfl
  | fail e => rfl
  | ask q k ih => exact congrArg (ask q) (funext ih)

theorem assoc (p : Asks Q A ε α) (f : α → Asks Q A ε β) {γ : Type} (g : β → Asks Q A ε γ) :
    p >>= f >>= g = p >>= fun a => f a >>= g := by
  induction p with
  | done a => rfl
  | fail e => rfl
  | ask q k ih => exact congrArg (ask q) (funext ih)

instance : LawfulMonad (Asks Q A ε) :=
  LawfulMonad.mk' _ map_id (fun _ _ => rfl) fun p f g => assoc p f g

def question (q : Q) : Asks Q A ε (A q) := ask q done

/-- Goes on only under the condition. -/
def ensure (condition : Bool) (e : ε) : Asks Q A ε Unit := if condition then done () else fail e

@[simp] theorem ensure_true (e : ε) : (ensure true e : Asks Q A ε Unit) = pure () := rfl

/-- The conversation under a deadline: with no answer in time, the asker is dropped. -/
def exec (env : Surroundings Q A) (past : List (Event Q A)) :
    Asks Q A ε α → List (Event Q A) × Option (Except ε α)
  | done a => ([], some (.ok a))
  | fail e => ([], some (.error e))
  | ask q k =>
    match env past q with
    | none => ([⟨q, none⟩], none)
    | some a =>
      let rest := exec env (past ++ [⟨q, some a⟩]) (k a)
      (⟨q, some a⟩ :: rest.1, rest.2)

/-- The surroundings answer as the script has it. -/
def Follows (env : Surroundings Q A) : List (Event Q A) → List (Event Q A) → Prop
  | _, [] => True
  | past, e :: script => env past e.1 = e.2 ∧ Follows env (past ++ [e]) script

theorem exec_ask_none {env : Surroundings Q A} {past : List (Event Q A)} {q : Q}
    {k : A q → Asks Q A ε α} (h : env past q = none) : (ask q k).exec env past = ([⟨q, none⟩], none) := by
  unfold exec
  rw [h]

theorem exec_ask_some {env : Surroundings Q A} {past : List (Event Q A)} {q : Q}
    {k : A q → Asks Q A ε α} {a : A q} (h : env past q = some a) :
    (ask q k).exec env past = (⟨q, some a⟩ :: ((k a).exec env (past ++ [⟨q, some a⟩])).1,
      ((k a).exec env (past ++ [⟨q, some a⟩])).2) := by
  rw [exec, h]

/-- `p` can hold this conversation and end so, or be dropped in it. -/
inductive Says : Asks Q A ε α → List (Event Q A) → Option (Except ε α) → Prop where
  | done (a : α) : Says (done a) [] (some (.ok a))
  | fail (e : ε) : Says (fail e) [] (some (.error e))
  | answered {q : Q} {k : A q → Asks Q A ε α} {t : List (Event Q A)} {r : Option (Except ε α)}
    (a : A q) : Says (k a) t r → Says (ask q k) (⟨q, some a⟩ :: t) r
  | dropped (q : Q) (k : A q → Asks Q A ε α) : Says (ask q k) [⟨q, none⟩] none

theorem says_of_exec (env : Surroundings Q A) (past : List (Event Q A)) (p : Asks Q A ε α) :
    Says p (exec env past p).1 (exec env past p).2 := by
  induction p generalizing past with
  | done a => exact .done a
  | fail e => exact .fail e
  | ask q k ih =>
    unfold exec
    cases env past q with
    | none => exact .dropped q k
    | some a => exact .answered a (ih a _)

/-- Every conversation of `p` is as `Φ` says. -/
def Holds (p : Asks Q A ε α) (Φ : List (Event Q A) → Option (Except ε α) → Prop) : Prop :=
  ∀ t r, Says p t r → Φ t r

section Rules

variable {p : Asks Q A ε α} {f : α → Asks Q A ε β}
  {Φ Φ' : List (Event Q A) → Option (Except ε α) → Prop}
  {Ψ : List (Event Q A) → Option (Except ε β) → Prop}

theorem Holds.exec (h : p.Holds Φ) (env : Surroundings Q A) (past : List (Event Q A)) :
    Φ (p.exec env past).1 (p.exec env past).2 :=
  h _ _ (says_of_exec env past p)

theorem Holds.mono (h : p.Holds Φ) (himp : ∀ t r, Φ t r → Φ' t r) : p.Holds Φ' :=
  fun t r hsays => himp t r (h t r hsays)

theorem holds_pure {a : α} (h : Φ [] (some (.ok a))) : Holds (pure a) Φ := by
  intro t r hsays
  cases hsays
  exact h

theorem holds_throw {e : ε} (h : Φ [] (some (.error e))) : Holds (throw e) Φ := by
  intro t r hsays
  cases hsays
  exact h

/-- A conversation of `p >>= f` is one of `p`, followed by one of `f a` when `p` ends in `a`. -/
theorem says_bind {t : List (Event Q A)} {r : Option (Except ε β)} (h : Says (p >>= f) t r) :
    (∃ a t₁ t₂, Says p t₁ (some (.ok a)) ∧ Says (f a) t₂ r ∧ t = t₁ ++ t₂) ∨
      (∃ e, Says p t (some (.error e)) ∧ r = some (.error e)) ∨ (Says p t none ∧ r = none) := by
  change Says (p.bind f) t r at h
  induction p generalizing t with
  | done a => exact .inl ⟨a, [], t, .done a, h, rfl⟩
  | fail e =>
    cases h
    exact .inr (.inl ⟨e, .fail e, rfl⟩)
  | ask q k ih =>
    cases h with
    | dropped => exact .inr (.inr ⟨.dropped q k, rfl⟩)
    | @answered _ _ t _ a hrest =>
      obtain ⟨b, t₁, t₂, hp, hf, ht⟩ | ⟨e, hp, hr⟩ | ⟨hp, hr⟩ := ih a hrest
      · refine .inl ⟨b, ⟨q, some a⟩ :: t₁, t₂, .answered a hp, hf, ?_⟩
        rw [ht]
        rfl
      · exact .inr (.inl ⟨e, .answered a hp, hr⟩)
      · exact .inr (.inr ⟨.answered a hp, hr⟩)

theorem holds_bind (hp : p.Holds Φ)
    (hok : ∀ a t, Φ t (some (.ok a)) → (f a).Holds fun t' r => Ψ (t ++ t') r)
    (herror : ∀ e t, Φ t (some (.error e)) → Ψ t (some (.error e)))
    (hdropped : ∀ t, Φ t none → Ψ t none) : Holds (p >>= f) Ψ := by
  intro t r hsays
  obtain ⟨a, t₁, t₂, h, hf, rfl⟩ | ⟨e, h, rfl⟩ | ⟨h, rfl⟩ := says_bind hsays
  · exact hok a t₁ (hp _ _ h) t₂ r hf
  · exact herror e t (hp _ _ h)
  · exact hdropped t (hp _ _ h)

theorem holds_question_bind {q : Q} {f : A q → Asks Q A ε β}
    (hanswer : ∀ a, (f a).Holds fun t r => Ψ (⟨q, some a⟩ :: t) r) (hdropped : Ψ [⟨q, none⟩] none) :
    Holds (question q >>= f) Ψ := by
  intro t r hsays
  change Says ((question q).bind f) t r at hsays
  unfold question bind at hsays
  cases hsays with
  | answered a hrest => exact hanswer a _ r hrest
  | dropped => exact hdropped

theorem holds_ensure_bind {condition : Bool} {e : ε} {f : Unit → Asks Q A ε β}
    (hok : condition = true → (f ()).Holds Ψ)
    (herror : condition = false → Ψ [] (some (.error e))) :
    Holds (ensure condition e >>= f) Ψ := by
  unfold ensure
  cases condition with
  | false => exact holds_throw (herror rfl)
  | true => exact hok rfl

theorem says_attempt {t : List (Event Q A)} {r : Option (Except ε (Except ε α))}
    (h : Says p.attempt t r) : ∃ r', Says p t r' ∧ r = r'.map .ok := by
  induction p generalizing t with
  | done a =>
    cases h
    exact ⟨_, .done a, rfl⟩
  | fail e =>
    cases h
    exact ⟨_, .fail e, rfl⟩
  | ask q k ih =>
    cases h with
    | dropped => exact ⟨none, .dropped q k, rfl⟩
    | answered a hrest =>
      obtain ⟨r', hp, hr⟩ := ih a hrest
      exact ⟨r', .answered a hp, hr⟩

theorem holds_attempt_bind {f : Except ε α → Asks Q A ε β} (hp : p.Holds Φ)
    (hok : ∀ a t, Φ t (some (.ok a)) → (f (.ok a)).Holds fun t' r => Ψ (t ++ t') r)
    (herror : ∀ e t, Φ t (some (.error e)) → (f (.error e)).Holds fun t' r => Ψ (t ++ t') r)
    (hdropped : ∀ t, Φ t none → Ψ t none) : Holds (p.attempt >>= f) Ψ := by
  intro t r hsays
  obtain ⟨a, t₁, t₂, h, hf, rfl⟩ | ⟨e, h, rfl⟩ | ⟨h, rfl⟩ := says_bind hsays
  · obtain ⟨r', hr', hmap⟩ := says_attempt h
    cases r' with
    | none => cases hmap
    | some out =>
      cases hmap
      cases a with
      | ok a => exact hok a t₁ (hp _ _ hr') t₂ r hf
      | error e => exact herror e t₁ (hp _ _ hr') t₂ r hf
  · obtain ⟨r', hr', hmap⟩ := says_attempt h
    cases r' <;> cases hmap
  · obtain ⟨r', hr', hmap⟩ := says_attempt h
    cases r' with
    | none => exact hdropped t (hp _ _ hr')
    | some out => cases hmap

end Rules

section Signals

/-- `p` among programs that also ask for signals. -/
def lift : Asks Q A ε α → Asks (Q ⊕ S) (Sum.elim A B) ε α
  | done a => done a
  | fail e => fail e
  | ask q k => ask (.inl q) fun a => (k a).lift

/-- Asks for a signal. -/
def signal (s : S) : Asks (Q ⊕ S) (Sum.elim A B) ε (B s) := ask (.inr s) done

/-- A biased race of `p` against a signal, which is looked at before `p` goes on: once it has
fired, `p` is dropped where it stands. -/
def select (s : S) (fired : B s → Bool) (e : ε) : Asks Q A ε α → Asks (Q ⊕ S) (Sum.elim A B) ε α
  | done a => ask (.inr s) fun b => if fired b then fail e else done a
  | fail e' => ask (.inr s) fun b => if fired b then fail e else fail e'
  | ask q k =>
    ask (.inr s) fun b =>
      if fired b then fail e else ask (.inl q) fun a => (k a).select s fired e

/-- The program with every signal answered by `σ`. -/
def resolve (σ : (s : S) → B s) : Asks (Q ⊕ S) (Sum.elim A B) ε α → Asks Q A ε α
  | done a => done a
  | fail e => fail e
  | ask (.inl q) k => ask q fun a => (k a).resolve σ
  | ask (.inr s) k => (k (σ s)).resolve σ

variable {σ : (s : S) → B s}

@[simp] theorem resolve_pure (a : α) :
    resolve σ (pure a : Asks (Q ⊕ S) (Sum.elim A B) ε α) = pure a := rfl

@[simp] theorem resolve_throw (e : ε) :
    resolve σ (throw e : Asks (Q ⊕ S) (Sum.elim A B) ε α) = throw e := rfl

@[simp] theorem resolve_lift (p : Asks Q A ε α) : resolve σ (p.lift : Asks (Q ⊕ S) _ ε α) = p := by
  induction p with
  | done a => rfl
  | fail e => rfl
  | ask q k ih => exact congrArg (ask q) (funext ih)

@[simp] theorem resolve_bind (p : Asks (Q ⊕ S) (Sum.elim A B) ε α)
    (f : α → Asks (Q ⊕ S) (Sum.elim A B) ε β) :
    resolve σ (p >>= f) = resolve σ p >>= fun a => resolve σ (f a) := by
  change resolve σ (p.bind f) = (resolve σ p).bind _
  induction p with
  | done a => rfl
  | fail e => rfl
  | ask q k ih =>
    cases q with
    | inl q => exact congrArg (ask q) (funext ih)
    | inr s => exact ih (σ s)

@[simp] theorem resolve_attempt (p : Asks (Q ⊕ S) (Sum.elim A B) ε α) :
    resolve σ p.attempt = (resolve σ p).attempt := by
  induction p with
  | done a => rfl
  | fail e => rfl
  | ask q k ih =>
    cases q with
    | inl q => exact congrArg (ask q) (funext ih)
    | inr s => exact ih (σ s)

@[simp] theorem resolve_signal_bind (s : S) (f : B s → Asks (Q ⊕ S) (Sum.elim A B) ε α) :
    resolve σ (signal s >>= f) = resolve σ (f (σ s)) := rfl

/-- Against a signal that does not fire, the race is `p` itself. -/
theorem resolve_select {s : S} {fired : B s → Bool} (h : fired (σ s) = false) (e : ε)
    (p : Asks Q A ε α) : resolve σ (p.select s fired e) = p := by
  induction p with
  | done a => simp [select, resolve, h]
  | fail e' => simp [select, resolve, h]
  | ask q k ih =>
    simp only [select, resolve, h, Bool.false_eq_true, if_false]
    exact congrArg (ask q) (funext ih)

/-- What was asked beside the signals. -/
def heard (t : List (Event (Q ⊕ S) (Sum.elim A B))) : List (Event Q A) :=
  t.filterMap fun
    | ⟨.inl q, a⟩ => some ⟨q, a⟩
    | ⟨.inr _, _⟩ => none

/-- Surroundings in which the signals keep their state. -/
def beside (env : Surroundings Q A) (σ : (s : S) → B s) :
    Surroundings (Q ⊕ S) (Sum.elim A B) := fun past q =>
  match q with
  | .inl q => env (heard past) q
  | .inr s => some (σ s)

theorem exec_beside (env : Surroundings Q A) (past : List (Event (Q ⊕ S) (Sum.elim A B)))
    (p : Asks (Q ⊕ S) (Sum.elim A B) ε α) :
    (resolve σ p).exec env (heard past) =
      (heard (p.exec (beside env σ) past).1,
        (p.exec (beside env σ) past).2) := by
  induction p generalizing past with
  | done a => rfl
  | fail e => rfl
  | ask q k ih =>
    cases q with
    | inl q =>
      have hanswer : beside env σ past (.inl q) = env (heard past) q := rfl
      unfold resolve exec
      rw [hanswer]
      cases env (heard past) q with
      | none => rfl
      | some a =>
        have hpast : heard (past ++ [⟨.inl q, some a⟩]) = heard past ++ [⟨q, some a⟩] := by
          simp [heard]
        have hrest := ih a (past ++ [⟨.inl q, some a⟩])
        rw [hpast] at hrest
        simp only [hrest]
        rfl
    | inr s =>
      let event : Event (Q ⊕ S) (Sum.elim A B) := ⟨.inr s, some (σ s)⟩
      have hpast : heard (past ++ [event]) = heard past := by
        simp [heard, event]
      have hrest := ih (σ s) (past ++ [event])
      rw [hpast] at hrest
      exact hrest

end Signals

end Asks

end RatatoskrVault.Lib
