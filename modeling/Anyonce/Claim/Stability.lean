import Anyonce.Claim.Store

/-!
# A stored result stays

While a completed row is live it is immune to every call of the interface: no `begin` takes it over,
no settlement writes or deletes it, whatever fence it carries, and no purge reaches it.  Nothing is
assumed about the order of the clock readings, only that each is below the row's expiry.

`stable_step` is about one call and `stable_run` about any number of them.
-/

namespace Anyonce

/-- Every clock reading the call carries is below `t`, and the call is not the test-only removal. -/
def StoreCall.ClocksBelow {Op Opts P : Type} (now : Opts → ℤ) (t : ℤ) : StoreCall Op Opts P → Prop
  | .Begin _ o => now o < t
  | .Complete _ _ _ n => n < t
  | .Abandon _ _ => True
  | .Get _ n => n < t
  | .Purge n => n < t
  | .PhysicallyRemove _ => False

namespace ClaimStore

variable {F Op Opts Row P : Type} [DecidableEq F] {M : ClaimModel F Op Opts Row P}
variable {σ A : Type} [DecidableEq A] {S : ClaimStore M σ A}

/-- What a `begin` answers when it meets a completed row: the row, as a replay or as a mismatch. -/
def replay (M : ClaimModel F Op Opts Row P) (op : Op) (row : Row) : BeginOutcome Row :=
  if M.fingerprint row = M.opFingerprint op then .Completed row else .Mismatch row

/-- A live completed row cannot be claimed. -/
lemma claimable_completed {op : Op} {o : Opts} {row : Row} (hs : M.state row = .Completed)
    (hlive : M.now o < M.expiresAt row) : M.claimable op o (some row) = false := by
  rw [← Bool.not_eq_true, ClaimModel.claimable_some, hs]
  rintro (hdead | ⟨-, hin, -⟩)
  · exact absurd hdead (not_le.mpr hlive)
  · cases hin

lemma begin_completed {s : σ} {op : Op} {o : Opts} {row : Row}
    (hrow : S.lookup s (S.addr op) = some row) (hs : M.state row = .Completed)
    (hlive : M.now o < M.expiresAt row) : (S.begin s op o).1 = replay M op row := by
  rw [S.begin_reply, hrow, ClaimModel.begin, if_neg (by simp [claimable_completed hs hlive])]
  show M.classify op row = replay M op row
  rcases eq_or_ne (M.fingerprint row) (M.opFingerprint op) with heq | hne
  · simp [ClaimModel.classify, replay, hs, heq]
  · simp [ClaimModel.classify, replay, hne]

/-- **One call leaves a live completed row as it is.** -/
lemma stable_step {s s' : σ} {c : StoreCall Op Opts P} {r : StoreReply Row c}
    (h : S.apply s c = (r, s')) {a : A} {row : Row} (hrow : S.lookup s a = some row)
    (hs : M.state row = .Completed) (hc : c.ClocksBelow M.now (M.expiresAt row)) :
    S.lookup s' a = some row := by
  have hcell := cell_step h a
  generalize hpost : S.lookup s' a = post at hcell
  cases hcell with
  | keep c r hg => exact hrow
  | grant op o ha hclaim =>
      rw [hrow, claimable_completed hs hc] at hclaim
      cases hclaim
  | finish op f p now row' ha hrow' hlive hf hin =>
      rw [hrow, Option.some.injEq] at hrow'
      rw [← hrow', hs] at hin
      cases hin
  | abandon op f row' ha hrow' hin hf =>
      rw [hrow, Option.some.injEq] at hrow'
      rw [← hrow', hs] at hin
      cases hin
  | purge now n row' hrow' hdead =>
      rw [hrow, Option.some.injEq] at hrow'
      rw [← hrow'] at hdead
      exact absurd hdead (not_le.mpr hc)
  | remove op ha => exact hc.elim

/-- **Any number of calls leaves it as it is**, and each `begin` on it is answered with it. -/
theorem stable_run {a : A} {row : Row} (hs : M.state row = .Completed) :
    ∀ (calls : List (StoreCall Op Opts P)) {s : σ}, S.lookup s a = some row →
      (∀ c ∈ calls, c.ClocksBelow M.now (M.expiresAt row)) →
      S.lookup (S.runCalls s calls).2 a = some row
        ∧ ∀ op o out, ⟨.Begin op o, out⟩ ∈ (S.runCalls s calls).1 → S.addr op = a →
          out = replay M op row
  | [], s, hrow, _ => ⟨hrow, by simp [runCalls]⟩
  | c :: rest, s, hrow, hbelow => by
      have hc := hbelow c (by simp)
      have hnext : S.lookup (S.apply s c).2 a = some row := stable_step rfl hrow hs hc
      obtain ⟨hend, hreplies⟩ := stable_run hs rest hnext fun c' hc' => hbelow c' (by simp [hc'])
      refine ⟨hend, ?_⟩
      intro op o out hmem ha
      rcases List.mem_cons.mp hmem with heq | hrest
      · cases heq
        subst ha
        exact begin_completed hrow hs hc
      · exact hreplies op o out hrest ha

end ClaimStore

end Anyonce
