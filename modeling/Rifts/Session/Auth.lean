import Mathlib.Data.Finset.Basic
import Rifts.Core.Error
import Rifts.Core.Hello
import Rifts.Core.Json
import Rifts.Transition.Run

/-! Bearer tokens of `TokenAuth`: the forward map, its reverse index, and what
revocation does to both. -/
namespace Rifts

structure AuthHints where
  region : Option String := none
  device : Option String := none
  risk : Option UInt32 := none
  deriving DecidableEq, Repr

structure AuthContext where
  clientId : String
  claims : Json
  mode : AuthMode
  hints : AuthHints

structure TokenAuth where
  tokens : String → Option AuthContext
  byClient : String → Option (Finset String)

namespace TokenAuth

def new : TokenAuth := ⟨fun _ => none, fun _ => none⟩

/-- The token set of a client, empty when it has no entry. -/
def tokensOf (a : TokenAuth) (clientId : String) : Finset String := (a.byClient clientId).getD ∅

/-- The reverse index is touched only when the token was not registered before. -/
def register (a : TokenAuth) (token : String) (ctx : AuthContext) : TokenAuth :=
  let inserted := (a.tokens token).isNone
  let tokens := Function.update a.tokens token (some ctx)
  if inserted then
    ⟨tokens, Function.update a.byClient ctx.clientId
      (some (insert token (a.tokensOf ctx.clientId)))⟩
  else ⟨tokens, a.byClient⟩

/-- `suffix` is the fresh ULID an anonymous principal is named after. -/
def authenticate (a : TokenAuth) (suffix : String) (mode : AuthMode) (token : Option String) :
    Except RiftError AuthContext :=
  if mode = .anonymous then
    .ok ⟨"anon-" ++ suffix, .object [], mode, {}⟩
  else
    match token with
    | none => .error (.auth .required)
    | some token =>
      match a.tokens token with
      | some ctx => .ok ctx
      | none => .error (.auth (.invalid "unknown token"))

def revoke (a : TokenAuth) (clientId : String) : TokenAuth :=
  ⟨fun token => if token ∈ a.tokensOf clientId then none else a.tokens token,
    Function.update a.byClient clientId none⟩

inductive Op
  | register (token : String) (ctx : AuthContext)
  | revoke (clientId : String)

def apply (a : TokenAuth) : Op → TokenAuth
  | .register token ctx => a.register token ctx
  | .revoke clientId => a.revoke clientId

/-- Every call returns, so a run of calls is never stuck. -/
def step (a : TokenAuth) (op : Op) : Option TokenAuth := some (a.apply op)

/-- The reverse index lists a token under exactly the client it authenticates to. -/
def Coherent (a : TokenAuth) : Prop :=
  ∀ token clientId, token ∈ a.tokensOf clientId ↔
    ∃ ctx, a.tokens token = some ctx ∧ ctx.clientId = clientId

/-- A registration does not move a registered token to another client. -/
def Regular (a : TokenAuth) : Op → Prop
  | .register token ctx => ∀ old, a.tokens token = some old → old.clientId = ctx.clientId
  | .revoke _ => True

end TokenAuth

/-- What a token store is for: each token's latest registration, until the
client it belongs to is revoked. -/
def Registry := String → Option AuthContext

def Registry.apply (r : Registry) : TokenAuth.Op → Registry
  | .register token ctx => Function.update r token (some ctx)
  | .revoke clientId => fun token => (r token).filter fun ctx => ctx.clientId ≠ clientId

namespace TokenAuth

variable {a b : TokenAuth} {token clientId : String} {ctx old : AuthContext} {op : Op}

theorem register_fresh (h : a.tokens token = none) : a.register token ctx =
    ⟨Function.update a.tokens token (some ctx), Function.update a.byClient ctx.clientId
      (some (insert token (a.tokensOf ctx.clientId)))⟩ := by
  simp [register, h]

theorem register_known (h : a.tokens token = some old) :
    a.register token ctx = ⟨Function.update a.tokens token (some ctx), a.byClient⟩ := by
  simp [register, h]

theorem register_tokens : (a.register token ctx).tokens =
    Function.update a.tokens token (some ctx) := by
  cases h : a.tokens token with
  | none => rw [register_fresh h]
  | some old => rw [register_known h]

@[simp] theorem revoke_tokens : (a.revoke clientId).tokens token =
    if token ∈ a.tokensOf clientId then none else a.tokens token := rfl

@[simp] theorem tokensOf_revoke {c : String} : (a.revoke clientId).tokensOf c =
    if c = clientId then ∅ else a.tokensOf c := by
  by_cases h : c = clientId <;> simp [revoke, tokensOf, h]

theorem coherent_new : Coherent new := by
  intro token clientId
  simp [tokensOf, new]

theorem coherent_register_fresh (hc : Coherent a) (h : a.tokens token = none) :
    Coherent (a.register token ctx) := by
  intro t c
  have hfresh : token ∉ a.tokensOf c := by simp [hc token c, h]
  rw [register_fresh h]
  by_cases ht : t = token <;> by_cases hcl : c = ctx.clientId
  · subst ht hcl
    simp [tokensOf]
  · subst ht
    simpa [tokensOf, hcl, Ne.symm hcl, Function.update_of_ne hcl] using hfresh
  · subst hcl
    simpa [tokensOf, ht] using hc t ctx.clientId
  · simpa [tokensOf, ht, hcl] using hc t c

/-- Overwriting a registration leaves the index where it was, so it stays
coherent exactly when the client did not change. -/
theorem coherent_register_known (hc : Coherent a) (h : a.tokens token = some old) :
    Coherent (a.register token ctx) ↔ old.clientId = ctx.clientId := by
  rw [register_known h]
  constructor
  · intro hn
    have hold : token ∈ a.tokensOf old.clientId := (hc token _).mpr ⟨old, h, rfl⟩
    obtain ⟨ctx', he, hid⟩ := (hn token old.clientId).mp hold
    simp only [Function.update_self, Option.some.injEq] at he
    rw [← hid, he]
  · intro hid t c
    by_cases ht : t = token
    · subst ht
      have hidx := hc t c
      simp only [h, Option.some.injEq, exists_eq_left'] at hidx
      simpa [tokensOf, hid] using hidx
    · simpa [tokensOf, ht] using hc t c

theorem coherent_revoke (hc : Coherent a) : Coherent (a.revoke clientId) := by
  intro t c
  have ht := hc t c
  by_cases hcl : c = clientId
  · subst hcl
    by_cases hm : t ∈ a.tokensOf c <;> simp_all
  · have hother : t ∈ a.tokensOf clientId → t ∉ a.tokensOf c := by
      intro hm hm'
      obtain ⟨ctx, h₁, hid⟩ := (hc t clientId).mp hm
      obtain ⟨ctx', h₂, hid'⟩ := ht.mp hm'
      rw [h₁] at h₂
      cases h₂
      exact hcl (hid'.symm.trans hid)
    by_cases hm : t ∈ a.tokensOf clientId
    · simp [hcl, hm, hother hm]
    · simpa [hcl, hm] using ht

/-- Exactly the regular calls keep the two maps inverse to each other. -/
theorem coherent_step (h : step a op = some b) (hc : Coherent a) :
    Coherent b ↔ Regular a op := by
  obtain rfl : a.apply op = b := Option.some.inj h
  cases op with
  | register token ctx =>
    cases ht : a.tokens token with
    | none => exact iff_of_true (coherent_register_fresh hc ht) (by simp [Regular, ht])
    | some old => simpa [apply, Regular, ht] using coherent_register_known hc ht
  | revoke clientId => exact iff_of_true (coherent_revoke hc) trivial

theorem coherent_run {ops : List Op} (hg : Transition.Guarded step Regular new ops)
    (hr : Transition.run step new ops = some a) : Coherent a :=
  Transition.run_invariant_of_guarded (fun _ _ _ h hok hc => (coherent_step h hc).mpr hok)
    hg hr coherent_new

/-- Over a coherent index the forward map follows the registry it implements. -/
theorem tokens_apply (hc : Coherent a) : (a.apply op).tokens = Registry.apply a.tokens op := by
  cases op with
  | register token ctx => exact register_tokens
  | revoke clientId =>
    funext token
    have hidx := hc token clientId
    cases ht : a.tokens token with
    | none => simp [apply, Registry.apply, ht]
    | some ctx =>
      have hm : token ∈ a.tokensOf clientId ↔ ctx.clientId = clientId := by simpa [ht] using hidx
      by_cases hid : ctx.clientId = clientId <;>
        simp [apply, Registry.apply, Option.filter, ht, hm, hid]

theorem tokens_run {ops : List Op} (hg : Transition.Guarded step Regular new ops)
    (hr : Transition.run step new ops = some a) :
    a.tokens = ops.foldl Registry.apply (fun _ => none) := by
  have h : ∀ {ops s}, Transition.Guarded step Regular s ops →
      Transition.run step s ops = some a → Coherent s →
      a.tokens = ops.foldl Registry.apply s.tokens := by
    intro ops
    induction ops with
    | nil =>
      intro s _ hr _
      cases hr
      rfl
    | cons op ops ih =>
      intro s hg hr hc
      obtain ⟨hok, hg⟩ := hg _ rfl
      have hc' := (coherent_step (rfl : step s op = _) hc).mpr hok
      rw [ih hg hr hc', tokens_apply hc]
      rfl
  exact h hg hr coherent_new

theorem authenticate_bearer_iff {suffix : String} : a.authenticate suffix .bearer (some token) =
    .ok ctx ↔ a.tokens token = some ctx := by
  cases h : a.tokens token <;> simp [authenticate, h]

/-- The index is coherent in every state exactly when no registered token changes
hands, and then a revocation removes the client's tokens and no others. -/
theorem revocation_complete_and_exact (ops : List Op) :
    (Transition.Throughout step Coherent new ops ↔ Transition.Guarded step Regular new ops) ∧
    ∀ a, Transition.Guarded step Regular new ops → Transition.run step new ops = some a →
      ∀ clientId suffix token ctx,
        (a.revoke clientId).authenticate suffix .bearer (some token) = .ok ctx ↔
          ops.foldl Registry.apply (fun _ => none) token = some ctx ∧
            ctx.clientId ≠ clientId := by
  refine ⟨Transition.throughout_iff_guarded (fun _ _ _ h hc => coherent_step h hc)
    coherent_new, ?_⟩
  intro a hg hr clientId suffix token ctx
  have hc := coherent_run hg hr
  have ht : (a.apply (.revoke clientId)).tokens = Registry.apply a.tokens (.revoke clientId) :=
    tokens_apply hc
  rw [authenticate_bearer_iff, ← tokens_run hg hr]
  change (a.apply (.revoke clientId)).tokens token = some ctx ↔ _
  rw [ht]
  simp [Registry.apply, Option.filter_eq_some_iff]

/-- Two clients with a token each; revoking one leaves the other's. -/
theorem revocation_two_clients :
    Transition.Guarded step Regular new [.register "s" ⟨"alice", .null, .bearer, {}⟩,
      .register "t" ⟨"bob", .null, .bearer, {}⟩] ∧
    ((new.register "s" ⟨"alice", .null, .bearer, {}⟩).register "t"
        ⟨"bob", .null, .bearer, {}⟩ |>.revoke "alice").authenticate "" .bearer (some "t") =
      .ok ⟨"bob", .null, .bearer, {}⟩ := by
  have hg : Transition.Guarded step Regular new [.register "s" ⟨"alice", .null, .bearer, {}⟩,
      .register "t" ⟨"bob", .null, .bearer, {}⟩] := by
    intro b hb
    obtain rfl := Option.some.inj hb
    refine ⟨by simp [Regular, new], ?_⟩
    intro b hb
    obtain rfl := Option.some.inj hb
    exact ⟨by simp [Regular, apply, register, new], trivial⟩
  exact ⟨hg, ((revocation_complete_and_exact _).2 _ hg rfl _ _ _ _).mpr ⟨rfl, by decide⟩⟩

/-- Registering a known token for another client leaves it under its old client,
so revoking the new one does not reach it. -/
theorem revoked_token_still_authenticates :
    ∃ a, Transition.run step new [.register "t" ⟨"alice", .null, .bearer, {}⟩,
        .register "t" ⟨"bob", .null, .bearer, {}⟩] = some a ∧ ¬ Coherent a ∧
      (a.revoke "bob").authenticate "" .bearer (some "t") =
        .ok ⟨"bob", .null, .bearer, {}⟩ := by
  refine ⟨_, rfl, ?_, ?_⟩
  · intro hc
    have := (hc "t" "bob").mpr ⟨_, rfl, rfl⟩
    revert this
    decide
  · rfl

end TokenAuth

end Rifts
