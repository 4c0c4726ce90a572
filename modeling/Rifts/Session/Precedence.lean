import Rifts.Session.Resume

/-! The resume decision against the precedence its documentation gives: `decide` returns at
the first anomaly that the map's iteration order shows it. -/
namespace Rifts

/-- The topic is not on the server. -/
def Missing (heads : String → Option Int64) (e : String × Int64) : Prop := heads e.1 = none

/-- The client is ahead of the server on the topic. -/
def Ahead (heads : String → Option Int64) (e : String × Int64) : Prop :=
  ∃ head ∈ heads e.1, head < e.2

def Lags (heads : String → Option Int64) (e : String × Int64) : Prop :=
  ∃ head ∈ heads e.1, e.2 < head

def LagsByOne (heads : String → Option Int64) (e : String × Int64) : Prop :=
  ∃ head ∈ heads e.1, e.2.toInt + 1 = head.toInt

section

variable {heads : String → Option Int64}

instance : DecidablePred (Missing heads) := fun e => inferInstanceAs (Decidable (heads e.1 = none))

instance : DecidablePred (Ahead heads) :=
  fun e => inferInstanceAs (Decidable (∃ head ∈ heads e.1, head < e.2))

instance : DecidablePred (Lags heads) :=
  fun e => inferInstanceAs (Decidable (∃ head ∈ heads e.1, e.2 < head))

instance : DecidablePred (LagsByOne heads) :=
  fun e => inferInstanceAs (Decidable (∃ head ∈ heads e.1, e.2.toInt + 1 = head.toInt))

end

/-- The decision logic as documented: six rules, the first that applies. -/
def documentedDecision (lastOffsets : List (String × Int64)) (heads : String → Option Int64) :
    ResumeDecision :=
  if lastOffsets = [] then .coldStart
  else if ∃ e ∈ lastOffsets, Missing heads e then .snapshotRequired
  else if ∃ e ∈ lastOffsets, Ahead heads e then .rejected
  else if (∃ e ∈ lastOffsets, Lags heads e) ∧
      ∀ e ∈ lastOffsets, Lags heads e → LagsByOne heads e then .replaying
  else if ∃ e ∈ lastOffsets, Lags heads e then .partialResume
  else .fullResume

variable {heads : String → Option Int64} {l l₁ l₂ : List (String × Int64)} {e : String × Int64}
  {within behind : Bool}

/-- The rules speak of the topics, not of their order. -/
theorem documentedDecision_perm (h : l₁.Perm l₂) :
    documentedDecision l₁ heads = documentedDecision l₂ heads := by
  have hnil : l₁ = [] ↔ l₂ = [] := by
    rw [← List.length_eq_zero_iff, ← List.length_eq_zero_iff, h.length_eq]
  simp only [documentedDecision, h.mem_iff, hnil]

/-- The loop's test against `head.saturating_sub(1)`, which is exact although the head may be
the least integer. -/
theorem lt_saturatingPred_iff {last head : Int64} :
    last < saturatingPred head ↔ last.toInt + 1 < head.toInt := by
  have hmin := Int64.minValue_le_toInt last
  rw [saturatingPred]
  split
  · next hhead =>
    subst hhead
    rw [Int64.lt_iff_toInt_lt]
    omega
  · next hhead =>
    have hlow : Int64.minValue.toInt < head.toInt :=
      lt_of_le_of_ne (Int64.minValue_le_toInt head) fun heq => hhead (Int64.toInt_inj.mp heq.symm)
    have hpred : (head - 1).toInt = head.toInt - 1 := by
      have hhigh := head.toInt_lt
      rw [Int64.toInt_sub, Int64.toInt_one, Int.bmod_eq_of_le_mul_two]
      all_goals simp at hlow; omega
    rw [Int64.lt_iff_toInt_lt, hpred]
    omega

theorem within_iff {head : Int64} (hhead : heads e.1 = some head) (hahead : ¬ Ahead heads e) :
    ¬ e.2 < saturatingPred head ↔ (Lags heads e → LagsByOne heads e) := by
  rw [lt_saturatingPred_iff]
  simp only [Ahead, Lags, LagsByOne, hhead, Option.mem_some_iff, exists_eq_left',
    Int64.lt_iff_toInt_lt] at hahead ⊢
  omega

theorem lags_iff {head : Int64} (hhead : heads e.1 = some head) :
    Lags heads e ↔ e.2 < head := by
  simp [Lags, hhead]

theorem decideLoop_of_missing (h : Missing heads e) :
    decideLoop heads (e :: l) within behind = .snapshotRequired := by
  have hnone : heads e.1 = none := h
  rw [decideLoop, hnone]

theorem decideLoop_of_ahead (h : Ahead heads e) :
    decideLoop heads (e :: l) within behind = .rejected := by
  obtain ⟨head, hhead, hlt⟩ := h
  rw [decideLoop, Option.mem_def.mp hhead]
  exact if_pos hlt

/-- A topic without an anomaly only changes the two flags. -/
theorem decideLoop_of_level (hmissing : ¬ Missing heads e) (hahead : ¬ Ahead heads e) :
    decideLoop heads (e :: l) within behind =
      decideLoop heads l (within && decide (Lags heads e → LagsByOne heads e))
        (behind || decide (Lags heads e)) := by
  obtain ⟨head, hhead⟩ := Option.ne_none_iff_exists'.mp hmissing
  have hle : ¬ head < e.2 := fun hlt => hahead ⟨head, hhead, hlt⟩
  have hwithin : decide (Lags heads e → LagsByOne heads e) =
      !decide (e.2 < saturatingPred head) := by
    rw [← decide_not, decide_eq_decide, within_iff hhead hahead]
  have hbehind : decide (Lags heads e) = decide (e.2 < head) := by
    rw [decide_eq_decide, lags_iff hhead]
  rw [decideLoop, hhead, hwithin, hbehind]
  exact if_neg hle

/-- Where topics are of one anomalous kind only, any of that kind decides, wherever it comes. -/
theorem decideLoop_eq_of_mem {Hit Other : String × Int64 → Prop} {decision : ResumeDecision}
    (hhit : ∀ {e l within behind}, Hit e → decideLoop heads (e :: l) within behind = decision)
    (hlevel : ∀ {e}, ¬ Hit e → ¬ Other e → ¬ Missing heads e ∧ ¬ Ahead heads e)
    (hother : ∀ e ∈ l, ¬ Other e) (h : ∃ e ∈ l, Hit e) :
    decideLoop heads l within behind = decision := by
  induction l generalizing within behind with
  | nil => simp at h
  | cons e l ih =>
    by_cases he : Hit e
    · exact hhit he
    · obtain ⟨m, hm, hhits⟩ := h
      rcases List.mem_cons.mp hm with rfl | hm
      · exact absurd hhits he
      · obtain ⟨hmissing, hahead⟩ := hlevel he (hother e List.mem_cons_self)
        rw [decideLoop_of_level hmissing hahead]
        exact ih (fun x hx => hother x (List.mem_cons_of_mem e hx)) ⟨m, hm, hhits⟩

theorem decideLoop_eq_snapshotRequired (hahead : ∀ e ∈ l, ¬ Ahead heads e)
    (h : ∃ e ∈ l, Missing heads e) : decideLoop heads l within behind = .snapshotRequired :=
  decideLoop_eq_of_mem decideLoop_of_missing (fun hm ha => ⟨hm, ha⟩) hahead h

theorem decideLoop_eq_rejected (hmissing : ∀ e ∈ l, ¬ Missing heads e)
    (h : ∃ e ∈ l, Ahead heads e) : decideLoop heads l within behind = .rejected :=
  decideLoop_eq_of_mem decideLoop_of_ahead (fun ha hm => ⟨hm, ha⟩) hmissing h

/-- With neither, the loop ends with the flags of all topics. -/
theorem decideLoop_eq_flags (hmissing : ∀ e ∈ l, ¬ Missing heads e)
    (hahead : ∀ e ∈ l, ¬ Ahead heads e) :
    decideLoop heads l within behind =
      decideLoop heads [] (within && decide (∀ e ∈ l, Lags heads e → LagsByOne heads e))
        (behind || decide (∃ e ∈ l, Lags heads e)) := by
  induction l generalizing within behind with
  | nil => simp
  | cons e l ih =>
    rw [decideLoop_of_level (hmissing e List.mem_cons_self) (hahead e List.mem_cons_self),
      ih (fun x hx => hmissing x (List.mem_cons_of_mem e hx))
        (fun x hx => hahead x (List.mem_cons_of_mem e hx))]
    simp only [List.forall_mem_cons, List.exists_mem_cons_iff, Bool.decide_and, Bool.decide_or,
      Bool.and_assoc, Bool.or_assoc]

/-- Some topic is missing and another is ahead: both rules apply, and the loop follows
whichever it meets first. -/
def Mixed (lastOffsets : List (String × Int64)) (heads : String → Option Int64) : Prop :=
  (∃ e ∈ lastOffsets, Missing heads e) ∧ ∃ e ∈ lastOffsets, Ahead heads e

instance {lastOffsets : List (String × Int64)} : Decidable (Mixed lastOffsets heads) :=
  inferInstanceAs (Decidable (_ ∧ _))

theorem decideResume_eq_documented (h : ¬ Mixed l heads) :
    decideResume l heads = documentedDecision l heads := by
  rw [decideResume, documentedDecision]
  by_cases hnil : l = []
  · simp [hnil]
  · rw [if_neg (by simpa using hnil), if_neg hnil]
    by_cases hmissing : ∃ e ∈ l, Missing heads e
    · have hahead : ∀ e ∈ l, ¬ Ahead heads e := fun e he ha => h ⟨hmissing, e, he, ha⟩
      rw [if_pos hmissing, decideLoop_eq_snapshotRequired hahead hmissing]
    · rw [if_neg hmissing]
      have hpresent : ∀ e ∈ l, ¬ Missing heads e := fun e he hm => hmissing ⟨e, he, hm⟩
      by_cases hahead : ∃ e ∈ l, Ahead heads e
      · rw [if_pos hahead, decideLoop_eq_rejected hpresent hahead]
      · have hbehind : ∀ e ∈ l, ¬ Ahead heads e := fun e he ha => hahead ⟨e, he, ha⟩
        rw [if_neg hahead, decideLoop_eq_flags hpresent hbehind, decideLoop]
        simp only [Bool.true_and, Bool.false_or, Bool.and_eq_true, decide_eq_true_eq]

/-- When both rules apply, one order ends in each. -/
theorem exists_orders_of_mixed (h : Mixed l heads) :
    (∃ order, order.Perm l ∧ decideResume order heads = .snapshotRequired) ∧
      ∃ order, order.Perm l ∧ decideResume order heads = .rejected := by
  obtain ⟨⟨m, hm, hmissing⟩, a, ha, hahead⟩ := h
  have hfront {e : String × Int64} (he : e ∈ l) : ∃ rest, (e :: rest).Perm l := by
    obtain ⟨pre, post, rfl⟩ := List.append_of_mem he
    exact ⟨pre ++ post, List.perm_middle.symm⟩
  obtain ⟨rest, hrest⟩ := hfront hm
  obtain ⟨rest', hrest'⟩ := hfront ha
  exact ⟨⟨_, hrest, decideLoop_of_missing hmissing⟩, _, hrest', decideLoop_of_ahead hahead⟩

theorem documentedDecision_of_mixed (h : Mixed l heads) :
    documentedDecision l heads = .snapshotRequired := by
  have hnil : l ≠ [] := by
    obtain ⟨⟨m, hm, -⟩, -⟩ := h
    exact List.ne_nil_of_mem hm
  rw [documentedDecision, if_neg hnil, if_pos h.1]

theorem Mixed.perm (h : l₁.Perm l₂) : Mixed l₁ heads ↔ Mixed l₂ heads := by
  simp only [Mixed, h.mem_iff]

/-- `decide` follows the documented precedence in every iteration order of the client's
offsets, and its result is the same in all of them, exactly when no topic is missing while
another is ahead of the server. -/
theorem decision_follows_documentation_iff (lastOffsets : List (String × Int64))
    (topicOffsets : String → Option Int64) :
    ((∀ order, order.Perm lastOffsets →
        decideResume order topicOffsets = documentedDecision lastOffsets topicOffsets) ↔
      ¬ ((∃ e ∈ lastOffsets, Missing topicOffsets e) ∧
        ∃ e ∈ lastOffsets, Ahead topicOffsets e)) ∧
    ((∀ order order', order.Perm lastOffsets → order'.Perm lastOffsets →
        decideResume order topicOffsets = decideResume order' topicOffsets) ↔
      ¬ ((∃ e ∈ lastOffsets, Missing topicOffsets e) ∧
        ∃ e ∈ lastOffsets, Ahead topicOffsets e)) := by
  change (_ ↔ ¬ Mixed lastOffsets topicOffsets) ∧ (_ ↔ ¬ Mixed lastOffsets topicOffsets)
  have hall (h : ¬ Mixed lastOffsets topicOffsets) (order) (hperm : order.Perm lastOffsets) :
      decideResume order topicOffsets = documentedDecision lastOffsets topicOffsets := by
    rw [← documentedDecision_perm hperm]
    exact decideResume_eq_documented fun hmixed => h ((Mixed.perm hperm).mp hmixed)
  refine ⟨⟨?_, hall⟩, ?_, ?_⟩
  · intro h hmixed
    obtain ⟨-, order, hperm, hrejected⟩ := exists_orders_of_mixed hmixed
    have hspec := h order hperm
    rw [hrejected, documentedDecision_of_mixed hmixed] at hspec
    cases hspec
  · intro h hmixed
    obtain ⟨⟨order, hperm, hsnap⟩, order', hperm', hrejected⟩ := exists_orders_of_mixed hmixed
    have hsame := h order order' hperm hperm'
    rw [hsnap, hrejected] at hsame
    cases hsame
  · intro h order order' hperm hperm'
    rw [hall h order hperm, hall h order' hperm']

/-- The head of one topic. -/
def onlyHead (topic : String) (head : Int64) : String → Option Int64 :=
  fun t => if t = topic then some head else none

theorem lone_topic_decided :
    decideResume [("a", 9)] (onlyHead "a" 10) = .replaying ∧
      decideResume [("a", 9)] (onlyHead "a" 10) =
        documentedDecision [("a", 9)] (onlyHead "a" 10) :=
  ⟨by decide, (decision_follows_documentation_iff [("a", 9)] (onlyHead "a" 10)).1.mpr (by decide)
    _ (List.Perm.refl _)⟩

/-- Topic `a` is ahead and topic `b` is gone: a snapshot is called for, but an iteration that
meets `a` first rejects the client. -/
theorem topic_order_decides :
    documentedDecision [("a", 5), ("b", 1)] (onlyHead "a" 3) = .snapshotRequired ∧
      decideResume [("a", 5), ("b", 1)] (onlyHead "a" 3) = .rejected ∧
      decideResume [("b", 1), ("a", 5)] (onlyHead "a" 3) = .snapshotRequired := by
  decide

end Rifts
