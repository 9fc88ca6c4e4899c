import Mathlib.Data.List.Nodup
import Mathlib.Data.List.Perm.Basic
import Mathlib.Logic.Function.Iterate

/-!
# Volleys

Shooters are tried against targets in two nested loops.  A shooter scores on a
target when the target is in its range and still alive; a score changes the
target, possibly for the last time, and puts the shooter on a list once per
score.  The shooters of one volley therefore compete for the targets, in the
order in which the outer loop visits them.

Main results:

- Theorem {lit}`Rules.volley_eq`: the closed form of the double loop.  A target takes
  one hit for each shooter in range until it is out, and a shooter scores on the
  targets that the shooters before it have left alive.
- Theorem {lit}`Rules.volley_rel`: a loop over other data refines a volley when its
  inner body does.
- Theorems {lit}`Rules.volleyWith_eq` and {lit}`Rules.volleyWith_rel`: both for a double loop that
  keeps another record of the scores.
- Theorem {lit}`Rules.account_recorded`: a record of pairs has an account for each target, of
  the shooters that score on it.
- Theorem {lit}`Rules.mem_scored_iff`: which shooters are on the list.
- Theorem {lit}`Rules.count_scored`: how often one shooter is on the list.
- Theorem {lit}`Rules.nodup_scored_append_iff`: when the list, extended by a second
  list of the same kind, names every shooter at most once.
-/

namespace Volley

/-- What is in range of what, which target states are alive, and what a hit
does. -/
structure Rules (β δ S : Type*) where
  inRange : β → δ → Bool
  alive : S → Bool
  hit : S → S

/-! ## Noting targets -/

section Noting

variable {α β δ : Type*}

/-- A loop body that notes what each push was made for. -/
def noting (body : β → α × List β → δ → α × List β) (b : β) (acc : α × List (β × δ)) (d : δ) :
    α × List (β × δ) :=
  ((body b (acc.1, []) d).1, acc.2 ++ (body b (acc.1, []) d).2.map fun b => (b, d))

/-- The pushes without their notes. -/
def forget (acc : α × List (β × δ)) : α × List β :=
  (acc.1, acc.2.map Prod.fst)

/-- Forgetting the notes gives back the double loop, if its body only pushes. -/
theorem foldl_noting {body : β → α × List β → δ → α × List β}
    (hpush : ∀ b a marks d, body b (a, marks) d =
      ((body b (a, []) d).1, marks ++ (body b (a, []) d).2))
    (bs : List β) (ds : List δ) (a : α) :
    bs.foldl (fun acc b => ds.foldl (body b) acc) (a, []) =
      forget (bs.foldl (fun acc b => ds.foldl (noting body b) acc) (a, [])) := by
  have hbody : ∀ b acc d, body b (forget acc) d = forget (noting body b acc d) := by
    intro b acc d
    rw [forget, hpush]
    simp [forget, noting, Function.comp_def]
  have hinner : ∀ acc b, ds.foldl (body b) (forget acc) = forget (ds.foldl (noting body b) acc) :=
    fun acc b => List.foldl_hom forget fun acc d => hbody b acc d
  have houter : ∀ acc, bs.foldl (fun acc b => ds.foldl (body b) acc) (forget acc) =
      forget (bs.foldl (fun acc b => ds.foldl (noting body b) acc) acc) :=
    fun acc => List.foldl_hom forget hinner
  exact houter (a, [])

/-- The shooters that are noted for one target. -/
def account [DecidableEq δ] (notes : List (β × δ)) (d : δ) : List β :=
  (notes.filter fun note => note.2 = d).map Prod.fst

end Noting

namespace Rules

variable {β δ S : Type*} (R : Rules β δ S)

/-- The effect of one shooter in range: a hit on a living target, nothing on
one that is out. -/
def absorb (s : S) : S :=
  if R.alive s then R.hit s else s

/-- The number of shooters of a list that have the target in range. -/
def pressure (bs : List β) (d : δ) : Nat :=
  bs.countP fun b => R.inRange b d

/-- The state of a target after a list of shooters. -/
def after (st : δ → S) (bs : List β) (d : δ) : S :=
  R.absorb^[R.pressure bs d] (st d)

/-- The shooter scores on the target when the earlier shooters have been tried. -/
def scores (st : δ → S) (earlier : List β) (b : β) (d : δ) : Bool :=
  R.alive (R.after st earlier d) && R.inRange b d

/-- The list of scoring shooters: one entry per score. -/
def scored (st : δ → S) (ds : List δ) : List β → List β → List β
  | _, [] => []
  | earlier, b :: bs =>
      (ds.filter (R.scores st earlier b)).map (fun _ => b) ++
        scored st ds (earlier ++ [b]) bs

@[simp]
theorem after_nil (st : δ → S) (d : δ) : R.after st [] d = st d :=
  rfl

theorem after_concat (st : δ → S) (bs : List β) (b : β) (d : δ) :
    R.after st (bs ++ [b]) d =
      if R.inRange b d then R.absorb (R.after st bs d) else R.after st bs d := by
  cases hrange : R.inRange b d with
  | false => simp [after, pressure, List.countP_append, hrange]
  | true => simp [after, pressure, List.countP_append, hrange, Function.iterate_succ_apply']

/-! ## The double loop -/

section Loop

variable [DecidableEq δ]

/-- The inner loop body. -/
def strike (b : β) (acc : (δ → S) × List β) (d : δ) : (δ → S) × List β :=
  if R.alive (acc.1 d) && R.inRange b d then
    (Function.update acc.1 d (R.hit (acc.1 d)), acc.2 ++ [b])
  else acc

/-- The double loop over shooters and targets. -/
def volley (bs : List β) (ds : List δ) (st : δ → S) : (δ → S) × List β :=
  bs.foldl (fun acc b => ds.foldl (R.strike b) acc) (st, [])

/-- The inner loop body with any record of a score. -/
def strikeWith {μ : Type*} (mark : β → δ → μ) (b : β) (acc : (δ → S) × List μ) (d : δ) :
    (δ → S) × List μ :=
  if R.alive (acc.1 d) && R.inRange b d then
    (Function.update acc.1 d (R.hit (acc.1 d)), acc.2 ++ [mark b d])
  else acc

/-- The records of the scores. -/
def recorded {μ : Type*} (mark : β → δ → μ) (st : δ → S) (ds : List δ) :
    List β → List β → List μ
  | _, [] => []
  | earlier, b :: bs =>
      (ds.filter (R.scores st earlier b)).map (mark b) ++
        recorded mark st ds (earlier ++ [b]) bs

/-- Noting the targets of a volley records pairs. -/
theorem noting_strike : noting R.strike = R.strikeWith Prod.mk := by
  funext b acc d
  by_cases hscore : (R.alive (acc.1 d) && R.inRange b d) = true
  · simp only [noting, strike, strikeWith, hscore, if_true]
    rfl
  · simp only [noting, strike, strikeWith, hscore]
    simp

omit [DecidableEq δ] in
/-- The list of scoring shooters records the shooter. -/
theorem scored_eq_recorded (st : δ → S) (ds : List δ) (earlier bs : List β) :
    R.scored st ds earlier bs = R.recorded (fun b _ => b) st ds earlier bs := by
  induction bs generalizing earlier with
  | nil => rfl
  | cons b bs ih => rw [scored, recorded, ih]

/-- One round of the outer loop over distinct targets. -/
theorem foldl_strikeWith {μ : Type*} {ds : List δ} (hnodup : ds.Nodup) (mark : β → δ → μ)
    (b : β) (st : δ → S) (marks : List μ) :
    ds.foldl (R.strikeWith mark b) (st, marks) =
      (fun d => if d ∈ ds ∧ R.inRange b d then R.absorb (st d) else st d,
        marks ++ (ds.filter fun d => R.alive (st d) && R.inRange b d).map (mark b)) := by
  induction ds generalizing st marks with
  | nil => simp
  | cons d ds ih =>
      have hd := (List.nodup_cons.mp hnodup).1
      have hne : ∀ d' ∈ ds, d' ≠ d := fun d' hd' heq => hd (heq ▸ hd')
      rw [List.foldl_cons]
      by_cases hscore : (R.alive (st d) && R.inRange b d) = true
      · rw [strikeWith, if_pos hscore, ih (List.nodup_cons.mp hnodup).2]
        have hfilter : (ds.filter fun d' =>
              R.alive (Function.update st d (R.hit (st d)) d') && R.inRange b d') =
            ds.filter fun d' => R.alive (st d') && R.inRange b d' := by
          apply List.filter_congr
          intro d' hd'
          rw [Function.update_of_ne (hne d' hd')]
        refine Prod.ext ?_ ?_
        · funext d'
          by_cases heq : d' = d
          · subst heq
            simp only [Bool.and_eq_true] at hscore
            simp [hd, absorb, hscore]
          · simp [heq]
        · have hhead : ((d :: ds).filter fun d' => R.alive (st d') && R.inRange b d') =
              d :: ds.filter fun d' => R.alive (st d') && R.inRange b d' :=
            List.filter_cons_of_pos hscore
          simp [hhead, hfilter]
      · rw [strikeWith, if_neg hscore, ih (List.nodup_cons.mp hnodup).2]
        refine Prod.ext ?_ ?_
        · funext d'
          by_cases heq : d' = d
          · subst heq
            cases hrange : R.inRange b d' with
            | false => simp [hd, hrange]
            | true =>
                have hdead : R.alive (st d') = false := by simpa [hrange] using hscore
                simp [hd, absorb, hdead]
          · simp [heq]
        · have hhead : ((d :: ds).filter fun d' => R.alive (st d') && R.inRange b d') =
              ds.filter fun d' => R.alive (st d') && R.inRange b d' :=
            List.filter_cons_of_neg hscore
          rw [hhead]

private theorem volleyWith_from {μ : Type*} {ds : List δ} (hnodup : ds.Nodup)
    (mark : β → δ → μ) (st : δ → S) (earlier bs : List β) (marks : List μ) :
    bs.foldl (fun acc b => ds.foldl (R.strikeWith mark b) acc)
        (fun d => if d ∈ ds then R.after st earlier d else st d, marks) =
      (fun d => if d ∈ ds then R.after st (earlier ++ bs) d else st d,
        marks ++ R.recorded mark st ds earlier bs) := by
  induction bs generalizing earlier marks with
  | nil => simp [recorded]
  | cons b bs ih =>
      have hround : ds.foldl (R.strikeWith mark b)
            (fun d => if d ∈ ds then R.after st earlier d else st d, marks) =
          (fun d => if d ∈ ds then R.after st (earlier ++ [b]) d else st d,
            marks ++ (ds.filter (R.scores st earlier b)).map (mark b)) := by
        have hfilter : (ds.filter fun d =>
              R.alive (if d ∈ ds then R.after st earlier d else st d) && R.inRange b d) =
            ds.filter (R.scores st earlier b) := by
          apply List.filter_congr
          intro d hd
          simp [hd, scores]
        rw [R.foldl_strikeWith hnodup, hfilter]
        refine Prod.ext ?_ rfl
        funext d
        by_cases hd : d ∈ ds
        · simp [hd, after_concat]
        · simp [hd]
      rw [List.foldl_cons, hround, ih]
      simp [recorded]

/-- The double loop with any record of the scores: every target has taken one hit for each
shooter in range until it was out. -/
theorem volleyWith_eq {μ : Type*} {ds : List δ} (hnodup : ds.Nodup) (mark : β → δ → μ)
    (bs : List β) (st : δ → S) :
    bs.foldl (fun acc b => ds.foldl (R.strikeWith mark b) acc) (st, []) =
      (fun d => if d ∈ ds then R.after st bs d else st d, R.recorded mark st ds [] bs) := by
  simpa using R.volleyWith_from hnodup mark st [] bs []

/-- Closed form of the double loop: every target has taken one hit for each
shooter in range until it was out, and the list names each shooter once per
target that the earlier shooters left alive. -/
theorem volley_eq {ds : List δ} (hnodup : ds.Nodup) (bs : List β) (st : δ → S) :
    R.volley bs ds st =
      (fun d => if d ∈ ds then R.after st bs d else st d, R.scored st ds [] bs) := by
  rw [scored_eq_recorded]
  exact R.volleyWith_eq hnodup (fun b _ => b) bs st

/-- Simulation rule: a double loop whose inner body simulates a strike simulates
the volley, with any record of the scores. -/
theorem volleyWith_rel {α μ : Type*} (mark : β → δ → μ) (rel : α → (δ → S) × List μ → Prop)
    {body : β → α → δ → α}
    (hbody : ∀ b d a acc, rel a acc → rel (body b a d) (R.strikeWith mark b acc d))
    {a : α} {st : δ → S} (hstart : rel a (st, [])) (bs : List β) (ds : List δ) :
    rel (bs.foldl (fun a b => ds.foldl (body b) a) a)
      (bs.foldl (fun acc b => ds.foldl (R.strikeWith mark b) acc) (st, [])) :=
  List.foldl_rel hstart fun b _ _ _ hrel =>
    List.foldl_rel hrel fun d _ a acc hacc => hbody b d a acc hacc

/-- Simulation rule for the list of scoring shooters. -/
theorem volley_rel {α : Type*} (rel : α → (δ → S) × List β → Prop) {body : β → α → δ → α}
    (hbody : ∀ b d a acc, rel a acc → rel (body b a d) (R.strike b acc d))
    {a : α} {st : δ → S} (hstart : rel a (st, [])) (bs : List β) (ds : List δ) :
    rel (bs.foldl (fun a b => ds.foldl (body b) a) a) (R.volley bs ds st) :=
  R.volleyWith_rel (fun b _ => b) rel hbody hstart bs ds

end Loop

/-! ## Accounts -/

section Accounts

/-- The shooters that score on one target. -/
def scoredOn (st : δ → S) (d : δ) : List β → List β → List β
  | _, [] => []
  | earlier, b :: bs =>
      if R.scores st earlier b d then b :: scoredOn st d (earlier ++ [b]) bs
      else scoredOn st d (earlier ++ [b]) bs

/-- A target that takes a fixed number of hits is hit by the first shooters in range. -/
theorem scoredOn_eq_take {st : δ → S} {d : δ} {m : ℕ}
    (halive : ∀ k, R.alive (R.absorb^[k] (st d)) = decide (k < m)) (earlier bs : List β) :
    R.scoredOn st d earlier bs =
      (bs.filter fun b => R.inRange b d).take (m - R.pressure earlier d) := by
  induction bs generalizing earlier with
  | nil => simp [scoredOn]
  | cons b bs ih =>
      have hscores : R.scores st earlier b d =
          (decide (R.pressure earlier d < m) && R.inRange b d) := by
        rw [scores, after, halive]
      have hpressure : R.pressure (earlier ++ [b]) d =
          R.pressure earlier d + if R.inRange b d then 1 else 0 := by
        simp [pressure, List.countP_append]
      rw [scoredOn, hscores, ih, hpressure]
      cases hrange : R.inRange b d with
      | false => simp [hrange]
      | true =>
          by_cases hout : R.pressure earlier d < m
          · have hleft : m - R.pressure earlier d = m - (R.pressure earlier d + 1) + 1 := by
              omega
            simp [hrange, hout, hleft]
          · have hleft : m - R.pressure earlier d = 0 := by omega
            have hleft' : m - (R.pressure earlier d + 1) = 0 := by omega
            simp [hout, hleft, hleft']

variable [DecidableEq δ]

/-- The account of a target lists the shooters that score on it. -/
theorem account_recorded {ds : List δ} (hnodup : ds.Nodup) (st : δ → S) (d : δ)
    (earlier bs : List β) :
    account (R.recorded Prod.mk st ds earlier bs) d =
      if d ∈ ds then R.scoredOn st d earlier bs else [] := by
  induction bs generalizing earlier with
  | nil => simp [recorded, account, scoredOn]
  | cons b bs ih =>
      have hround : account ((ds.filter (R.scores st earlier b)).map (Prod.mk b)) d =
          if d ∈ ds ∧ R.scores st earlier b d then [b] else [] := by
        have hnotes : account ((ds.filter (R.scores st earlier b)).map (Prod.mk b)) d =
            (ds.filter fun d' => R.scores st earlier b d' && decide (d' = d)).map fun _ => b := by
          simp [account, List.filter_map, List.filter_filter, Function.comp_def, Bool.and_comm]
        have hone : (ds.filter fun d' => R.scores st earlier b d' && decide (d' = d)) =
            if d ∈ ds ∧ R.scores st earlier b d then [d] else [] := by
          rw [← List.filter_filter, List.filter_eq, hnodup.count]
          by_cases hd : d ∈ ds <;> by_cases hscores : R.scores st earlier b d <;>
            simp [hd, hscores]
        rw [hnotes, hone]
        split <;> rfl
      have happend : ∀ notes notes' : List (β × δ),
          account (notes ++ notes') d = account notes d ++ account notes' d := by
        intro notes notes'
        simp [account]
      rw [recorded, happend, hround, ih, scoredOn]
      by_cases hd : d ∈ ds <;> by_cases hscores : R.scores st earlier b d <;> simp [hd, hscores]

end Accounts

/-! ## Counting scores -/

/-- A shooter is on the list exactly when it scores on some target after the shooters before
it. -/
theorem mem_scored_iff {st : δ → S} {ds : List δ} {earlier bs : List β} {b : β} :
    b ∈ R.scored st ds earlier bs ↔
      ∃ pre post d, bs = pre ++ b :: post ∧ d ∈ ds ∧ R.scores st (earlier ++ pre) b d = true := by
  induction bs generalizing earlier with
  | nil => simp [scored]
  | cons b' bs ih =>
      rw [scored, List.mem_append, ih]
      constructor
      · rintro (hhead | ⟨pre, post, d, rfl, hd, hscores⟩)
        · rcases List.mem_map.mp hhead with ⟨d, hd, rfl⟩
          rcases List.mem_filter.mp hd with ⟨hmem, hscores⟩
          exact ⟨[], bs, d, rfl, hmem, by simpa using hscores⟩
        · exact ⟨b' :: pre, post, d, rfl, hd, by simpa using hscores⟩
      · rintro ⟨pre, post, d, hsplit, hd, hscores⟩
        cases pre with
        | nil =>
            rw [List.nil_append, List.cons.injEq] at hsplit
            rcases hsplit with ⟨rfl, rfl⟩
            rw [List.append_nil] at hscores
            exact Or.inl (List.mem_map.mpr ⟨d, List.mem_filter.mpr ⟨hd, hscores⟩, rfl⟩)
        | cons a pre =>
            rw [List.cons_append, List.cons.injEq] at hsplit
            rcases hsplit with ⟨rfl, rfl⟩
            exact Or.inr ⟨pre, post, d, rfl, hd, by simpa using hscores⟩

/-- A target that is out stays what it is. -/
theorem after_of_not_alive {st : δ → S} {d : δ} (hout : R.alive (st d) = false) (bs : List β) :
    R.after st bs d = st d :=
  Function.iterate_fixed (by simp [absorb, hout]) _

/-- A target that no shooter has in range stays what it is. -/
theorem after_of_forall_not_inRange {bs : List β} {d : δ}
    (hfar : ∀ b ∈ bs, R.inRange b d = false) (st : δ → S) : R.after st bs d = st d := by
  have hpressure : R.pressure bs d = 0 := by
    rw [pressure, List.countP_eq_zero]
    intro b hb
    simp [hfar b hb]
  rw [after, hpressure]
  rfl

/-- Who scores has a target in range that was alive at the start. -/
theorem alive_of_scores {st : δ → S} {earlier : List β} {b : β} {d : δ}
    (hscores : R.scores st earlier b d = true) :
    R.alive (st d) = true ∧ R.inRange b d = true := by
  rw [scores, Bool.and_eq_true] at hscores
  refine ⟨?_, hscores.2⟩
  by_contra hout
  have hout' : R.alive (st d) = false := by simpa using hout
  rw [R.after_of_not_alive hout', hout'] at hscores
  exact Bool.false_ne_true hscores.1

/-- A shooter on the list has some target in range. -/
theorem mem_of_mem_scored {st : δ → S} {ds : List δ} {earlier bs : List β} {b : β}
    (h : b ∈ R.scored st ds earlier bs) : b ∈ bs ∧ ∃ d ∈ ds, R.inRange b d = true := by
  rcases R.mem_scored_iff.mp h with ⟨pre, post, d, rfl, hd, hscores⟩
  exact ⟨by simp, d, hd, (R.alive_of_scores hscores).2⟩

/-- A shooter is on the list once for each target it scores on. -/
theorem count_scored [DecidableEq β] {st : δ → S} {ds : List δ} {earlier pre post : List β}
    {b : β} (hnodup : (pre ++ b :: post).Nodup) :
    (R.scored st ds earlier (pre ++ b :: post)).count b =
      (ds.filter (R.scores st (earlier ++ pre) b)).length := by
  induction pre generalizing earlier with
  | nil =>
      have hpost : b ∉ R.scored st ds (earlier ++ [b]) post :=
        fun h => (List.nodup_cons.mp hnodup).1 (R.mem_of_mem_scored h).1
      rw [List.nil_append, scored, List.count_append, List.count_eq_zero_of_not_mem hpost,
        List.map_const', List.count_replicate_self]
      simp
  | cons a pre ih =>
      rw [List.cons_append] at hnodup
      have hne : a ≠ b := fun heq =>
        (List.nodup_cons.mp hnodup).1 (heq ▸ List.mem_append_right _ List.mem_cons_self)
      rw [List.cons_append, scored, List.count_append, ih (List.nodup_cons.mp hnodup).2,
        List.map_const', List.count_replicate]
      simp [hne]

/-- The score list followed by a second list that names each shooter of the
volley some number of times is free of repetitions exactly when every shooter
has at most one entry in the two lists together. -/
theorem nodup_scored_append_iff [DecidableEq β] {st : δ → S} {ds : List δ}
    {bs marks : List β} (hnodup : bs.Nodup) (hmarks : ∀ b ∈ marks, b ∈ bs) :
    (R.scored st ds [] bs ++ marks).Nodup ↔
      ∀ pre b post, bs = pre ++ b :: post →
        (ds.filter (R.scores st pre b)).length + marks.count b ≤ 1 := by
  rw [List.nodup_iff_count_le_one]
  constructor
  · intro hcount pre b post hsplit
    subst hsplit
    simpa [List.count_append, R.count_scored hnodup] using hcount b
  · intro hsplit b
    by_cases hb : b ∈ bs
    · rcases List.append_of_mem hb with ⟨pre, post, rfl⟩
      simpa [List.count_append, R.count_scored hnodup] using hsplit pre b post rfl
    · have hscored : b ∉ R.scored st ds [] bs := fun h => hb (R.mem_of_mem_scored h).1
      have hrest : b ∉ marks := fun h => hb (hmarks b h)
      rw [List.count_eq_zero_of_not_mem (by simp [hscored, hrest])]
      exact Nat.zero_le 1

end Rules

end Volley
