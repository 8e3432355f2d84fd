import Mathlib.Data.Prod.Lex
import Warband.Squad.Character

/-!
# The vote on a character

The winner is found by a scan of the classes in ascending order, in which a later
class wins a tie; so behind every prefix of the scan stands the winner among the
classes seen so far. The class that is elected has most votes, and of the classes
with as many votes it is the highest.

The scan looks at nothing but the counters. Hence neither the order of the members
nor the number of unclassified ones makes a difference. A counter has 32 bits and
wraps around: with less than 2³² members of a class it shows their number, but
2³² members of a class are as good as none.
-/
namespace Warband

theorem BotClass.ordinal_inj {c d : BotClass} : c.ordinal = d.ordinal ↔ c = d := by
  cases c <;> cases d <;> decide

theorem BotClass.exists_ordinal (i : Fin 5) : ∃ c : BotClass, c.ordinal = i := by
  have hall : ∀ i : Fin 5, ∃ c ∈ (Named.all : List BotClass), c.ordinal = i := by decide
  obtain ⟨c, -, hc⟩ := hall i
  exact ⟨c, hc⟩

theorem BotClass.ascending :
    (Named.all : List BotClass).Pairwise fun c d => c.ordinal < d.ordinal := by decide

theorem BotClass.mem_all (c : BotClass) : c ∈ (Named.all : List BotClass) := by
  cases c <;> decide

namespace Character

variable {members others : List BotClass} {c d : BotClass}

/-! ## The counters -/

/-- The votes of a class as its counter shows them. -/
def votes (members : List BotClass) (c : BotClass) : Nat := ((tally members).shown c).toNat

/-- One vote is counted for the class of a member, and none for any other. -/
theorem shown_count (t : Tally) (m c : BotClass) :
    (t.count m).shown c = if m ≠ .unknown ∧ m = c then t.shown c + 1 else t.shown c := by
  by_cases hm : m = .unknown
  · rw [Tally.count, if_pos hm, if_neg fun h => h.1 hm]
  · rw [Tally.count, if_neg hm, Tally.shown, Fin.getElem_fin, Vector.getElem_set]
    by_cases hc : m = c
    · subst hc
      rw [if_pos rfl, if_pos ⟨hm, rfl⟩]
    · have hne : (m.ordinal : Nat) ≠ c.ordinal := fun h =>
        hc (BotClass.ordinal_inj.1 (Fin.ext h))
      rw [if_neg hne, if_neg fun h => hc h.2]
      rfl

theorem shown_foldl_count (t : Tally) (members : List BotClass) (c : BotClass) :
    (members.foldl Tally.count t).shown c =
      t.shown c + UInt32.ofNat ((members.filter (· ≠ .unknown)).count c) := by
  induction members generalizing t with
  | nil => exact (UInt32.add_zero _).symm
  | cons m members ih =>
      rw [List.foldl_cons, ih, shown_count]
      by_cases hm : m = .unknown
      · rw [List.filter_cons_of_neg (by simpa using hm), if_neg fun h => h.1 hm]
      · rw [List.filter_cons_of_pos (by simpa using hm), List.count_cons]
        by_cases hc : m = c
        · rw [if_pos ⟨hm, hc⟩, if_pos (beq_iff_eq.2 hc), UInt32.ofNat_add, UInt32.add_assoc]
          exact congrArg _ (UInt32.add_comm ..)
        · rw [if_neg fun h => hc h.2, if_neg fun h => hc (beq_iff_eq.1 h), Nat.add_zero]

/-- A counter shows the number of members that vote for its class, up to multiples of 2³². -/
theorem votes_eq (members : List BotClass) (c : BotClass) :
    votes members c = (members.filter (· ≠ .unknown)).count c % UInt32.size := by
  have hzero : Tally.shown (.replicate 5 0) c = 0 := Vector.getElem_replicate _
  rw [votes, tally, shown_foldl_count, hzero, UInt32.zero_add]
  exact UInt32.toNat_ofNat'

theorem votes_unknown (members : List BotClass) : votes members .unknown = 0 := by
  have hnone : BotClass.unknown ∉ members.filter (· ≠ .unknown) := by simp
  rw [votes_eq, List.count_eq_zero_of_not_mem hnone, Nat.zero_mod]

theorem votes_of_ne (members : List BotClass) (hc : c ≠ .unknown) :
    votes members c = members.count c % UInt32.size := by
  rw [votes_eq, List.count_filter (by simpa using hc)]

/-- While it does not wrap around, a counter shows the number of members. -/
theorem votes_of_lt (hc : c ≠ .unknown) (h : members.count c < UInt32.size) :
    votes members c = members.count c := by
  rw [votes_of_ne members hc, Nat.mod_eq_of_lt h]

/-- The counters show nothing but the numbers of classified members. -/
theorem tally_congr (h : ∀ c, c ≠ .unknown → others.count c = members.count c) :
    tally others = tally members := by
  refine Vector.ext fun i hi => ?_
  obtain ⟨c, hc⟩ := BotClass.exists_ordinal ⟨i, hi⟩
  have hvotes : votes others c = votes members c := by
    by_cases hunknown : c = .unknown
    · rw [hunknown, votes_unknown, votes_unknown]
    · rw [votes_of_ne others hunknown, votes_of_ne members hunknown, h c hunknown]
  have hindex : (c.ordinal : Nat) = i := congrArg Fin.val hc
  subst hindex
  exact UInt32.toNat_inj.1 hvotes

/-- Members with as many of each class have the same character. -/
theorem vote_congr (h : ∀ c, c ≠ .unknown → others.count c = members.count c) :
    vote others = vote members := by
  rw [vote, vote, winner?, winner?, tally_congr h]

theorem count_insert_unknown (before after : List BotClass) (hc : c ≠ .unknown) :
    (before ++ .unknown :: after).count c = (before ++ after).count c := by
  rw [List.count_append, List.count_append, List.count_cons_of_ne hc.symm]

/-! ## The scan -/

/-- Classes stand by their votes, and by their order with as many votes. -/
def standing (members : List BotClass) (c : BotClass) : ℕ ×ₗ ℕ :=
  toLex (votes members c, c.ordinal)

theorem standing_le_iff : standing members d ≤ standing members c ↔
    votes members d < votes members c ∨
      votes members d = votes members c ∧ (d.ordinal : ℕ) ≤ c.ordinal :=
  Prod.Lex.toLex_le_toLex

/-- The winner among the classes seen so far with its counter, if any of them has votes. -/
def Leading (members seen : List BotClass) : Option (BotClass × UInt32) → Prop
  | .none => ∀ d ∈ seen, votes members d = 0
  | some (c, n) => c ∈ seen ∧ n = (tally members).shown c ∧ 0 < votes members c ∧
      ∀ d ∈ seen, standing members d ≤ standing members c

namespace Leading

variable {seen : List BotClass} {w : BotClass} {n : UInt32}

theorem keep (h : Leading members seen (some (w, n)))
    (hc : standing members c ≤ standing members w) :
    Leading members (seen ++ [c]) (some (w, n)) := by
  obtain ⟨hw, hn, hpos, hbest⟩ := h
  refine ⟨List.mem_append_left _ hw, hn, hpos, fun d hd => ?_⟩
  rcases List.mem_append.1 hd with hd | hd
  · exact hbest d hd
  · exact List.mem_singleton.1 hd ▸ hc

theorem take (hpos : 0 < votes members c)
    (hbest : ∀ d ∈ seen, standing members d ≤ standing members c) :
    Leading members (seen ++ [c]) (some (c, (tally members).shown c)) := by
  refine ⟨List.mem_concat_self, rfl, hpos, fun d hd => ?_⟩
  rcases List.mem_append.1 hd with hd | hd
  · exact hbest d hd
  · rw [List.mem_singleton.1 hd]

theorem none (h : Leading members seen .none) (hc : votes members c = 0) :
    Leading members (seen ++ [c]) .none := by
  intro d hd
  rcases List.mem_append.1 hd with hd | hd
  · exact h d hd
  · exact List.mem_singleton.1 hd ▸ hc

/-- A later class leads if anyone votes for it and it has at least as many votes. -/
theorem lead {winner : Option (BotClass × UInt32)} (h : Leading members seen winner)
    (hlast : ∀ d ∈ seen, d.ordinal < c.ordinal) :
    Leading members (seen ++ [c]) ((tally members).lead winner c) := by
  have hvotes : 0 < (tally members).shown c ↔ 0 < votes members c := UInt32.lt_iff_toNat_lt
  unfold Tally.lead
  cases winner with
  | none =>
      by_cases hc : 0 < votes members c
      · rw [if_pos ⟨hvotes.2 hc, rfl⟩]
        refine take hc fun d hd => standing_le_iff.2 (.inl ?_)
        rwa [h d hd]
      · rw [if_neg fun hlead => hc (hvotes.1 hlead.1)]
        exact h.none (Nat.eq_zero_of_not_pos hc)
  | some winner =>
      obtain ⟨w, n⟩ := winner
      obtain ⟨hw, rfl, hwpos, hbest⟩ := id h
      have hall : (some (w, (tally members).shown w)).all
          (fun w => decide (w.2 ≤ (tally members).shown c)) = true ↔
          votes members w ≤ votes members c :=
        decide_eq_true_iff.trans UInt32.le_iff_toNat_le
      by_cases hle : votes members w ≤ votes members c
      · have hpos : 0 < votes members c := hwpos.trans_le hle
        have hstanding : standing members w ≤ standing members c :=
          standing_le_iff.2 (hle.lt_or_eq.imp_right fun heq => ⟨heq, Nat.le_of_lt (hlast w hw)⟩)
        rw [if_pos ⟨hvotes.2 hpos, hall.2 hle⟩]
        exact take hpos fun d hd => (hbest d hd).trans hstanding
      · rw [if_neg fun hlead => hle (hall.1 hlead.2)]
        exact h.keep (standing_le_iff.2 (.inl (Nat.lt_of_not_le hle)))

theorem foldl {rest : List BotClass} {winner : Option (BotClass × UInt32)}
    (h : Leading members seen winner)
    (hasc : (seen ++ rest).Pairwise fun c d => c.ordinal < d.ordinal) :
    Leading members (seen ++ rest) (rest.foldl (tally members).lead winner) := by
  induction rest generalizing seen winner with
  | nil => rwa [List.append_nil]
  | cons c rest ih =>
      have hlast : ∀ d ∈ seen, d.ordinal < c.ordinal := fun d hd =>
        (List.pairwise_append.1 hasc).2.2 d hd c List.mem_cons_self
      rw [List.append_cons] at hasc ⊢
      exact ih (h.lead hlast) hasc

end Leading

/-- Behind the last class stands the winner. -/
theorem leading_all (members : List BotClass) :
    Leading members Named.all ((Named.all : List BotClass).foldl (tally members).lead .none) := by
  have hstart : Leading members [] .none := fun _ hd => absurd hd List.not_mem_nil
  exact hstart.foldl BotClass.ascending

theorem votes_eq_zero_of_winner? (h : winner? members = .none) (d : BotClass) :
    votes members d = 0 := by
  have hlead := leading_all members
  rw [Option.map_eq_none_iff.1 h] at hlead
  exact hlead d d.mem_all

theorem of_winner?_eq_some (h : winner? members = some c) :
    0 < votes members c ∧ ∀ d, standing members d ≤ standing members c := by
  obtain ⟨⟨w, n⟩, hw, rfl⟩ := Option.map_eq_some_iff.1 h
  have hlead := leading_all members
  rw [hw] at hlead
  exact ⟨hlead.2.2.1, fun d => hlead.2.2.2 d d.mem_all⟩

theorem vote_of_winner? (h : winner? members = some c) : vote members = ofClass c := by
  rw [vote, h]

theorem ofClass_ne_none (hc : c ≠ .unknown) : ofClass c ≠ .none := by
  cases c <;> first | exact absurd rfl hc | exact nofun

/-- The vote comes to nothing iff the counters show no votes. -/
theorem vote_eq_none_iff : vote members = .none ↔ ∀ d, votes members d = 0 := by
  cases hw : winner? members with
  | none =>
      have hvote : vote members = .none := by rw [vote, hw]
      exact iff_of_true hvote (votes_eq_zero_of_winner? hw)
  | some c =>
      have hpos := (of_winner?_eq_some hw).1
      have hknown : c ≠ .unknown := by
        rintro rfl
        exact hpos.ne' (votes_unknown members)
      rw [vote_of_winner? hw]
      exact iff_of_false (ofClass_ne_none hknown) fun h => hpos.ne' (h c)

/-! ## The election -/

/-- The class that is elected. -/
structure Elected (members : List BotClass) (c : BotClass) : Prop where
  known : c ≠ .unknown
  voted : c ∈ members
  most : ∀ d, d ≠ .unknown → members.count d ≤ members.count c
  highest : ∀ d, d ≠ .unknown → members.count d = members.count c → d.ordinal ≤ c.ordinal

/-- No class has so many members that its counter wraps around. -/
def Countable (members : List BotClass) : Prop :=
  ∀ c, c ≠ .unknown → members.count c < UInt32.size

namespace Countable

theorem votes_pos_iff (h : Countable members) :
    0 < votes members c ↔ c ≠ .unknown ∧ c ∈ members := by
  by_cases hc : c = .unknown
  · rw [hc, votes_unknown]
    exact iff_of_false (Nat.lt_irrefl 0) fun hknown => hknown.1 rfl
  · rw [votes_of_lt hc (h c hc), List.count_pos_iff, and_iff_right hc]

theorem none_iff (h : Countable members) :
    vote members = .none ↔ ∀ m ∈ members, m = .unknown := by
  rw [vote_eq_none_iff]
  constructor
  · intro hzero m hm
    by_contra hknown
    exact (h.votes_pos_iff.2 ⟨hknown, hm⟩).ne' (hzero m)
  · intro hall d
    by_contra hd
    obtain ⟨hknown, hmem⟩ := h.votes_pos_iff.1 (Nat.pos_of_ne_zero hd)
    exact hknown (hall d hmem)

theorem elected (h : Countable members) (hw : winner? members = some c) :
    Elected members c := by
  obtain ⟨hpos, hbest⟩ := of_winner?_eq_some hw
  obtain ⟨hknown, hvoted⟩ := h.votes_pos_iff.1 hpos
  have hcount : ∀ d, d ≠ .unknown → members.count d < members.count c ∨
      members.count d = members.count c ∧ d.ordinal ≤ c.ordinal := by
    intro d hd
    rw [← votes_of_lt hd (h d hd), ← votes_of_lt hknown (h c hknown)]
    exact standing_le_iff.1 (hbest d)
  refine ⟨hknown, hvoted, fun d hd => ?_, fun d hd heq => ?_⟩
  · rcases hcount d hd with hlt | ⟨heq, -⟩
    · exact hlt.le
    · exact heq.le
  · exact ((hcount d hd).resolve_left heq.not_lt).2

theorem exists_elected (h : Countable members) (hclassified : ∃ m ∈ members, m ≠ .unknown) :
    ∃ c, Elected members c ∧ vote members = ofClass c := by
  cases hw : winner? members with
  | none =>
      obtain ⟨m, hm, hknown⟩ := hclassified
      exact absurd (votes_eq_zero_of_winner? hw m) (h.votes_pos_iff.2 ⟨hknown, hm⟩).ne'
  | some c => exact ⟨c, h.elected hw, vote_of_winner? hw⟩

end Countable

/-! ## The vote -/

/-- The order of the members and the unclassified ones among them make no difference to
the vote. With less than 2³² members of each class it is an exact plurality: nobody's
character is taken iff no member is classified, and otherwise it is that of the class
with most votes, the highest such class. -/
theorem vote_is_plurality (members : List BotClass) :
    (∀ others, members.Perm others → vote others = vote members) ∧
      (∀ before after, vote (before ++ .unknown :: after) = vote (before ++ after)) ∧
      ((∀ c, c ≠ .unknown → members.count c < UInt32.size) →
        (vote members = .none ↔ ∀ m ∈ members, m = .unknown) ∧
          ((∃ m ∈ members, m ≠ .unknown) →
            ∃ c, Elected members c ∧ vote members = ofClass c)) := by
  refine ⟨fun others hperm => vote_congr fun c _ => (hperm.count_eq c).symm,
    fun before after => vote_congr fun c hc => count_insert_unknown before after hc,
    fun h => ?_⟩
  have hcountable : Countable members := h
  exact ⟨hcountable.none_iff, hcountable.exists_elected⟩

/-- One vote each for the second class and the last one, and three abstentions. -/
theorem vote_of_tied_members :
    let members : List BotClass := [.pmc, .unknown, .boss, .unknown, .unknown]
    (∀ c, c ≠ .unknown → members.count c < UInt32.size) ∧ Elected members .boss ∧
      vote members = elite := by
  intro members
  have hcount : ∀ c, c ≠ .unknown → members.count c < UInt32.size := by
    intro c _
    cases c <;> decide
  obtain ⟨c, helected, hvote⟩ :=
    ((vote_is_plurality members).2.2 hcount).2 ⟨.pmc, by decide, by decide⟩
  have helite : vote members = elite := by decide
  have hboss : c = .boss := by
    rw [helite] at hvote
    cases c <;> first | rfl | cases hvote
  exact ⟨hcount, hboss ▸ helected, helite⟩

/-- So many members of one class and nobody else, yet no character is elected. -/
theorem vote_of_overflowing_counter :
    vote (List.replicate UInt32.size .pmc) = .none ∧
      ∃ m ∈ List.replicate UInt32.size BotClass.pmc, m ≠ .unknown := by
  constructor
  · rw [vote_eq_none_iff]
    intro d
    by_cases hd : d = .unknown
    · rw [hd, votes_unknown]
    · rw [votes_of_ne _ hd, List.count_replicate]
      split
      · exact Nat.mod_self _
      · exact Nat.zero_mod _
  · exact ⟨.pmc, List.mem_replicate.2 ⟨by decide, rfl⟩, by decide⟩

end Character

end Warband
