import PageTemplate.Proofs.Render.Unrolling

/-! How often a loop between integer literals goes round. Its variable is a double, so its start,
its end, its step and every sum are rounded. The loop ends just if no step up to its end is lost in
the rounding; it has as many turns as there are values where nothing is rounded, and else as many as
the steps allow that are left of the rounding. -/
namespace PageTemplate

open Double

/-! ## The values of the variable -/

/-- The variable of a loop from `a` after so many steps of `s`. -/
def counted (a s : Int) : Nat → Int
  | 0 => nearest a
  | k + 1 => nearest (counted a s k + nearest s)

section

variable {a b s : Int} {k n : Nat}

theorem nearest_counted (a s : Int) (k : Nat) : nearest (counted a s k) = counted a s k := by
  cases k with
  | zero => exact nearest_nearest a
  | succ k => exact nearest_nearest _

theorem counted_le_succ (hs : 0 < s) (k : Nat) : counted a s k ≤ counted a s (k + 1) := by
  have hstep := nearest_pos_iff.2 hs
  have hmono := nearest_mono (by omega : counted a s k ≤ counted a s k + nearest s)
  rwa [nearest_counted] at hmono

theorem counted_mono (hs : 0 < s) : Monotone (counted a s) :=
  monotone_nat_of_le_succ (counted_le_succ hs)

/-- A step that is not lost in the rounding moves the variable. -/
theorem counted_lt_succ (hs : 0 < s) (h : (counted a s k).natAbs < 2 ^ 53 * nearest s) :
    counted a s k < counted a s (k + 1) :=
  lt_nearest_add (nearest_counted a s k) (nearest_pos_iff.2 hs) h

/-- How much of a step a loop may lose in the rounding. -/
def slack (a b s : Int) : Nat :=
  loss (max (nearest a).natAbs ((nearest b).natAbs + (nearest s).natAbs - 1))

/-- A loop loses less than its step if its start and its end are less than `2 ^ 53` steps away from
zero. -/
theorem slack_lt (hs : 0 < s) (ha : (nearest a).natAbs < 2 ^ 53 * nearest s)
    (hb : (nearest b).natAbs < 2 ^ 53 * nearest s) : slack a b s < nearest s := by
  have hstep := nearest_pos_iff.2 hs
  have hlost : ∀ n, (nearest n).natAbs < 2 ^ 53 * nearest s →
      loss ((nearest n).natAbs + (nearest s).natAbs - 1) < (nearest s).natAbs := fun n hn =>
    loss_lt (nearest_eq_self_iff.1 (nearest_nearest n)) (by omega) (by omega)
  have hstart : loss (nearest a).natAbs < (nearest s).natAbs :=
    (loss_mono (by omega)).trans_lt (hlost a ha)
  have hboth : slack a b s < (nearest s).natAbs := by
    unfold slack
    rcases max_choice (nearest a).natAbs ((nearest b).natAbs + (nearest s).natAbs - 1) with h | h
    · rwa [h]
    · rw [h]
      exact hlost b hb
  omega

/-- Up to the end the variable goes up by what is left of the step. -/
theorem add_le_counted (hs : 0 < s) (hk : counted a s k ≤ nearest b) :
    nearest a + k * (nearest s - slack a b s) ≤ counted a s k := by
  induction k with
  | zero => simp [counted]
  | succ k ih =>
    have hle := (counted_le_succ hs k).trans hk
    have hstart : nearest a ≤ counted a s k := counted_mono hs (Nat.zero_le k)
    have hstep := nearest_pos_iff.2 hs
    have hsum : counted a s k + nearest s ≤ counted a s (k + 1) + slack a b s :=
      le_nearest_add_loss (by omega)
    have := ih hle
    push_cast
    rw [Int.add_mul, Int.one_mul]
    omega

/-- The variable is past the end after as many steps as what is left of them allows. -/
theorem lt_counted_of_slack (hs : 0 < s) (h : slack a b s < nearest s) : nearest b <
    counted a s ((nearest b - nearest a) / (nearest s - slack a b s) + 1).toNat := by
  by_contra hnot
  have hge := add_le_counted hs (not_lt.1 hnot)
  have hlt := Int.lt_ediv_add_one_mul_self (nearest b - nearest a)
    (by omega : 0 < nearest s - slack a b s)
  have hle := Int.mul_le_mul_of_nonneg_right (Int.self_le_toNat
    ((nearest b - nearest a) / (nearest s - slack a b s) + 1))
    (by omega : 0 ≤ nearest s - slack a b s)
  omega

/-- A variable that goes up up to the end is past it at some time. -/
theorem exists_lt_counted
    (h : ∀ k, counted a s k ≤ nearest b → counted a s k < counted a s (k + 1)) :
    ∃ k, nearest b < counted a s k := by
  by_contra hnot
  push Not at hnot
  have hgrows : ∀ k : Nat, nearest a + k ≤ counted a s k := by
    intro k
    induction k with
    | zero => exact (add_zero _).le
    | succ k ih =>
      have := h k (hnot k)
      push_cast
      omega
  have hpast := hgrows (nearest b - nearest a + 1).toNat
  have hend := hnot (nearest b - nearest a + 1).toNat
  omega

/-- A variable that a step does not move stays where it is. -/
theorem counted_add_of_eq (h : counted a s (k + 1) = counted a s k) (n : Nat) :
    counted a s (k + n) = counted a s k := by
  induction n with
  | zero => rfl
  | succ n ih =>
    rw [← Nat.add_assoc, counted, ih]
    exact h

/-- A variable that is not past the end when a step does not move it is never past it. -/
theorem counted_le_of_eq (hs : 0 < s) (h : counted a s (k + 1) = counted a s k)
    (hk : counted a s k ≤ nearest b) (n : Nat) : counted a s n ≤ nearest b := by
  rcases le_total n k with hle | hle
  · exact (counted_mono hs hle).trans hk
  · obtain ⟨m, rfl⟩ := Nat.exists_eq_add_of_le hle
    rwa [counted_add_of_eq h]

/-- What makes a loop count as the integers do: the end, the step and the values are all doubles,
and there is a double past the end that is not past the value after the last one. -/
structure Unrounded (a b s : Int) : Prop where
  stop : nearest b = b
  step : nearest s = s
  values : ∀ v ∈ loopValues a b s, nearest v = v
  beyond : ∃ v, nearest v = v ∧ b < v ∧ v ≤ a + s * (loopValues a b s).length

theorem length_loopValues (a b s : Int) : (loopValues a b s).length = ((b - a) / s + 1).toNat := by
  simp [loopValues]

theorem mem_loopValues (h : k < (loopValues a b s).length) : a + s * k ∈ loopValues a b s := by
  rw [length_loopValues] at h
  exact List.mem_map.2 ⟨k, List.mem_range.2 h, rfl⟩

theorem Unrounded.counted_eq (h : Unrounded a b s) (hk : k < (loopValues a b s).length) :
    counted a s k = a + s * k := by
  induction k with
  | zero => simpa [counted] using h.values _ (mem_loopValues hk)
  | succ k ih =>
    rw [counted, ih (by omega), h.step, ← h.values _ (mem_loopValues hk)]
    congr 1
    push_cast
    ring

/-- After its values the variable is past the end. -/
theorem Unrounded.lt_counted (h : Unrounded a b s) :
    nearest b < counted a s (loopValues a b s).length := by
  obtain ⟨v, hv, hbv, hle⟩ := h.beyond
  have hpast : v ≤ counted a s (loopValues a b s).length := by
    cases hn : (loopValues a b s).length with
    | zero =>
      rw [hn] at hle
      rw [counted, ← hv]
      exact nearest_mono (by simpa using hle)
    | succ n =>
      rw [hn] at hle
      rw [counted, h.counted_eq (by omega), h.step, ← hv]
      refine nearest_mono (hle.trans_eq ?_)
      push_cast
      ring
  rw [h.stop]
  omega

/-- The values are between the start and the end. -/
theorem bounds_of_mem_loopValues (hs : 0 < s) {v : Int} (h : v ∈ loopValues a b s) :
    a ≤ v ∧ v ≤ b := by
  obtain ⟨k, hk, rfl⟩ := List.mem_map.1 h
  have hquot : (k : Int) ≤ (b - a) / s := by
    rw [List.mem_range] at hk
    omega
  have hle : s * k ≤ b - a :=
    (Int.mul_le_mul_of_nonneg_left hquot hs.le).trans (Int.mul_ediv_self_le hs.ne')
  have hnonneg : 0 ≤ s * (k : Int) := Int.mul_nonneg hs.le (Int.natCast_nonneg k)
  omega

/-- The value after the last one is the first that is past the end. -/
theorem bounds_of_next (hs : 0 < s) :
    b < a + s * (loopValues a b s).length ∧
      a + s * (loopValues a b s).length ≤ max a (b + s) := by
  rw [length_loopValues]
  rcases lt_or_ge b a with h | h
  · have hneg := Int.ediv_neg_of_neg_of_pos (by omega : b - a < 0) hs
    rw [Int.toNat_of_nonpos (by omega)]
    simp [h]
  · have hnonneg := Int.ediv_nonneg (by omega : 0 ≤ b - a) hs.le
    have hdiv := Int.mul_ediv_add_emod (b - a) s
    have hmod := Int.emod_lt_of_pos (b - a) hs
    have hmod' := Int.emod_nonneg (b - a) hs.ne'
    rw [Int.toNat_of_nonneg (by omega), Int.mul_add, Int.mul_one]
    omega

/-- Loops between integers of at most `2 ^ 53` are not rounded, if the value after the last one is
no larger. -/
theorem unrounded_of_le (hs : 0 < s) (hs' : s ≤ 2 ^ 53) (ha : a.natAbs ≤ 2 ^ 53)
    (hb : b.natAbs ≤ 2 ^ 53) (hbs : b + s ≤ 2 ^ 53) : Unrounded a b s where
  stop := nearest_of_le hb
  step := nearest_of_le (by omega)
  values := by
    intro v hv
    have := bounds_of_mem_loopValues hs hv
    exact nearest_of_le (by omega)
  beyond := by
    obtain ⟨hlt, hle⟩ := bounds_of_next (a := a) (b := b) hs
    exact ⟨_, nearest_of_le (by omega), hlt, le_refl _⟩

end

/-! ## Turns -/

variable {ω : Type}

/-- Where a loop from `a` to `b` is before a turn: its variable has gone up by `s` as often as the
loop has gone round. -/
structure Counting (turns : Nat) (name : Text) (a b s : Int64) (stop step : Value) (left : Nat)
    (r : Rendering ω) : Prop where
  stop_eq : stop = .int b
  step_eq : step = .int s
  left_le : left ≤ turns
  cell : ∃ β c, r.bindings = Bindings.push β name c ∧
    toInt? c.number = some (counted a.toInt s.toInt (turns - left))
  small : (counted a.toInt s.toInt (turns - left)).natAbs ≤ 2 ^ 64

section

variable {turns left : Nat} {name : Text} {a b s : Int64} {stop step : Value}
  {r r' : Rendering ω}

theorem natAbs_nearest_toInt (n : Int64) : (nearest n.toInt).natAbs ≤ 2 ^ 63 := by
  have hlow := Int64.le_toInt n
  have hhigh := Int64.toInt_lt n
  exact natAbs_nearest_le (by omega)

/-- The variable of a turn, and how it compares with the end. -/
theorem Counting.exists_peek (h : Counting turns name a b s stop step left r) :
    ∃ c, r.bindings.peek name = some c ∧
      toInt? c.number = some (counted a.toInt s.toInt (turns - left)) ∧
      c.compare (some stop) =
        .ok (Ord.compare (counted a.toInt s.toInt (turns - left)) (nearest b.toInt)) := by
  obtain ⟨β, c, hbindings, hc⟩ := h.cell
  refine ⟨c, ?_, hc, ?_⟩
  · rw [hbindings, Bindings.peek_push]
  · rw [h.stop_eq, Cell.compare_of_toInt? hc h.small]

/-- A turn that goes on has a variable that is not past the end. -/
theorem Counting.le_stop (h : Counting turns name a b s stop step left r) {c : Cell}
    {order : Ordering} (hc : r.bindings.peek name = some c)
    (ho : c.compare (some stop) = .ok order) (hgt : order ≠ .gt) :
    counted a.toInt s.toInt (turns - left) ≤ nearest b.toInt := by
  obtain ⟨d, hpeek, -, hcompare⟩ := h.exists_peek
  cases hpeek.symm.trans hc
  cases hcompare.symm.trans ho
  exact not_lt.1 (mt Int.compare_eq_gt.2 hgt)

/-- The variable of a turn can go a step further. -/
theorem Counting.exists_advance {r₁ : Rendering ω}
    (h : Counting turns name a b s stop step left r) (hkeeps : r₁.bindings = r.bindings) :
    ∃ r', Render.advance name step r₁ = .ok () r' := by
  obtain ⟨β, c, hbindings, hc⟩ := h.cell
  obtain ⟨d, hadd, -⟩ := Cell.add_of_toInt? hc h.small s
  obtain ⟨bindings, context⟩ := r₁
  obtain rfl : bindings = β.push name c := hkeeps.trans hbindings
  rw [h.step_eq]
  exact ⟨_, Render.advance_push_of_ok hadd⟩

/-- A loop begins with its start. -/
theorem counting_enter (β : Bindings) (c : Context ω) :
    Counting turns name a b s (.int b) (.int s) turns
      ⟨β.push name ⟨Float.ofInt a.toInt⟩, c⟩ := by
  have hlow := Int64.le_toInt a
  have hhigh := Int64.toInt_lt a
  have hstart := natAbs_nearest_toInt a
  constructor
  case stop_eq => rfl
  case step_eq => rfl
  case left_le => exact le_refl _
  case cell =>
    rw [Nat.sub_self]
    exact ⟨β, _, rfl, toInt?_ofInt_nearest (by omega)⟩
  case small =>
    rw [Nat.sub_self, counted]
    omega

/-- A turn that goes on leaves the loop one step further. -/
theorem Counting.next {r₁ : Rendering ω}
    (h : Counting turns name a b s stop step (left + 1) r) (hs : 1 ≤ s.toInt)
    (hle : counted a.toInt s.toInt (turns - (left + 1)) ≤ nearest b.toInt)
    (hkeeps : r₁.bindings = r.bindings) (hadvance : Render.advance name step r₁ = .ok () r') :
    Counting turns name a b s stop step left r' := by
  obtain ⟨β, c, hbindings, hc⟩ := h.cell
  obtain ⟨d, hadd, hd⟩ := Cell.add_of_toInt? hc h.small s
  have hturn : turns - left = turns - (left + 1) + 1 := by
    have := h.left_le
    omega
  have hstart : nearest a.toInt ≤ counted a.toInt s.toInt (turns - (left + 1)) :=
    counted_mono (by omega) (Nat.zero_le _)
  have ha := natAbs_nearest_toInt a
  have hb := natAbs_nearest_toInt b
  have hstep := natAbs_nearest_toInt s
  constructor
  case stop_eq => exact h.stop_eq
  case step_eq => exact h.step_eq
  case left_le => exact Nat.le_of_succ_le h.left_le
  case cell =>
    obtain ⟨bindings, context⟩ := r₁
    obtain rfl : bindings = β.push name c := hkeeps.trans hbindings
    rw [h.step_eq, Render.advance_push_of_ok hadd] at hadvance
    cases hadvance
    rw [hturn]
    exact ⟨β, d, rfl, hd⟩
  case small =>
    rw [hturn, counted]
    exact natAbs_nearest_le (by omega)

end

/-- Every loop between literals counts. -/
def Point.Counts (turns : Nat) : Point ω → Prop
  | nodes _ _ _ => True
  | turn _ head _ stop step left r => ∀ (name : Text) (a b : Int64) (s : Option Int64),
    head = .ofLiterals name a b s → 1 ≤ (s.getD 1).toInt →
      Counting turns name a b (s.getD 1) stop step left r

section

variable [Page ω] {turns : Nat} {p q : Point ω}

theorem Point.Step.counts (h : Step turns p q) (hp : p.Counts turns) : q.Counts turns := by
  cases h with
  | text | echo | leave | body => trivial
  | enter hstart hstop hstep hc =>
    rintro name a b s rfl hs
    cases hstart
    cases hstop
    cases hc
    cases s with
    | none =>
      cases hstep
      exact counting_enter _ _
    | some s =>
      cases hstep
      exact counting_enter _ _
  | next hc ho hgt hbody hadvance =>
    rintro name a b s rfl hs
    have hcounting := hp name a b s rfl hs
    exact hcounting.next hs (hcounting.le_stop hc ho hgt)
      ((Render.keeps_run _ turns).bindings_of_ok hbody) hadvance

theorem Point.Reaches.counts (h : Reaches turns p q) (hp : p.Counts turns) : q.Counts turns := by
  induction h with
  | refl => exact hp
  | tail _ hstep ih => exact hstep.counts ih

end

/-! ## How many turns are started -/

/-- A computation that never comes to the limit of the turns. -/
def Render.Ends {α : Type} (m : Render ω α) : Prop := ∀ r r', m r ≠ .error .outOfTurns r'

theorem Render.Ends.bind {α β : Type} {m : Render ω α} {f : α → Render ω β} (hm : m.Ends)
    (hf : ∀ a, (f a).Ends) : (m >>= f).Ends := by
  intro r r' h
  rcases error_of_bind h with h | ⟨a, r₁, -, h⟩
  · exact hm r r' h
  · exact hf a r₁ r' h

theorem Render.ends_onBindings {ε α : Type} (wrap : ε → RenderError)
    (f : Bindings → Except ε α) : (onBindings wrap f : Render ω α).Ends := by
  intro r r' h
  obtain ⟨e, -, hhalt, -⟩ := error_onBindings h
  cases hhalt

theorem Render.ends_advance (name : Text) (step : Value) :
    (advance name step : Render ω Unit).Ends := by
  refine (ends_onBindings _ _).bind fun c => (ends_onBindings _ _).bind fun d => ?_
  intro r r' h
  cases h

/-- A loop that starts no more than so many turns in any render, and that ends if each of its turns
does and it is allowed more. -/
structure LoopHead.BoundedBy (ω : Type) [Page ω] (head : LoopHead) (limit : Nat) : Prop where
  starts : ∀ (turns : Nat) (d : Document) (c : Context ω) (outer : List Text) (inner : Document)
    (stop step : Value) (left : Nat) (r : Rendering ω),
    Point.Reaches turns (d.begin c) (.turn outer head inner stop step left r) →
      Point.Step turns (.turn outer head inner stop step left r)
        (.nodes (head.name :: outer) inner r) → turns - left < limit
  ends : ∀ (turns : Nat) (body : Render ω Unit), body.Keeps → body.Ends → limit < turns →
    (Render.loop head body turns).Ends

section

variable {name : Text} {a b s : Int64} {turns limit : Nat}

/-- Turns that have not passed the limit end before they run out. -/
theorem Render.ends_iterate (hs : 1 ≤ s.toInt)
    (hlimit : nearest b.toInt < counted a.toInt s.toInt limit) {body : Render ω Unit}
    (hkeeps : body.Keeps) (hends : body.Ends) {left : Nat} (hle : left ≤ turns)
    (hturns : turns - left ≤ limit) (hleft : limit < turns) {r : Rendering ω}
    (h : Counting turns name a b s (.int b) (.int s) left r) (r' : Rendering ω) :
    iterate name (.int b) (.int s) body left r ≠ .error .outOfTurns r' := by
  induction left generalizing r with
  | zero => omega
  | succ left ih =>
    obtain ⟨c, hpeek, -, ho⟩ := h.exists_peek
    intro herror
    by_cases hgt :
        Ord.compare (counted a.toInt s.toInt (turns - (left + 1))) (nearest b.toInt) = .gt
    · rw [hgt] at ho
      rw [iterate, bind_of_ok (binding_of_peek hpeek), bind_of_ok (onBindings_of_ok ho)] at herror
      cases herror
    · have hgoes := h.le_stop hpeek ho hgt
      have hbefore : turns - (left + 1) < limit := by
        by_contra hnot
        have := counted_mono (a := a.toInt) (by omega : 0 < s.toInt) (not_lt.1 hnot)
        omega
      rw [iterate_succ hpeek ho hgt] at herror
      rcases error_of_bind herror with hbody | ⟨⟨⟩, r₁, hbody, herror⟩
      · exact hends _ _ hbody
      · rcases error_of_bind herror with hadvance | ⟨⟨⟩, r₂, hadvance, herror⟩
        · exact ends_advance _ _ _ _ hadvance
        · have hnext := h.next hs hgoes (hkeeps.bindings_of_ok hbody) hadvance
          exact ih (by omega) (by omega) hnext herror

theorem LoopHead.stepValue?_ofLiterals (name : Text) (a b : Int64) (step : Option Int64)
    (β : Bindings) : (ofLiterals name a b step).stepValue? β = .ok (.int (step.getD 1)) := by
  cases step <;> rfl

/-- A loop is bounded by any number of steps that takes its variable past the end. -/
theorem LoopHead.boundedBy_of_lt [Page ω] {step : Option Int64} (hs : 1 ≤ (step.getD 1).toInt)
    (hlimit : nearest b.toInt < counted a.toInt (step.getD 1).toInt limit) :
    (ofLiterals name a b step).BoundedBy ω limit := by
  constructor
  case starts =>
    intro turns d c outer inner stop stepValue left r hreaches hstep
    have hcounting := hreaches.counts (p := d.begin c) trivial name a b step rfl hs
    cases hstep with
    | body hc ho hgt =>
      have hle := hcounting.le_stop hc ho hgt
      by_contra hnot
      have := counted_mono (a := a.toInt) (by omega : 0 < (step.getD 1).toInt) (not_lt.1 hnot)
      omega
  case ends =>
    intro turns body hkeeps hends hturns r r' herror
    rw [Render.loop_of_head rfl rfl (stepValue?_ofLiterals name a b step r.bindings) rfl] at herror
    obtain ⟨r₁, hrun⟩ := Render.error_withBinding herror
    exact Render.ends_iterate hs hlimit hkeeps hends (le_refl turns) (by omega) hturns
      (counting_enter _ _) r₁ hrun

/-! ## Loops that do not end -/

/-- Turns that never pass the end run out, if each of them comes to its end. -/
theorem Render.iterate_outOfTurns (hs : 1 ≤ s.toInt)
    (hstays : ∀ k, counted a.toInt s.toInt k ≤ nearest b.toInt) {body : Render ω Unit}
    (hkeeps : body.Keeps) (hok : ∀ r, ∃ r', body r = .ok () r') {left : Nat} {r : Rendering ω}
    (h : Counting turns name a b s (.int b) (.int s) left r) :
    ∃ r', iterate name (.int b) (.int s) body left r = .error .outOfTurns r' := by
  induction left generalizing r with
  | zero => exact ⟨r, rfl⟩
  | succ left ih =>
    obtain ⟨c, hpeek, -, ho⟩ := h.exists_peek
    have hle := hstays (turns - (left + 1))
    obtain ⟨r₁, hbody⟩ := hok r
    have hkept := hkeeps.bindings_of_ok hbody
    obtain ⟨r₂, hadvance⟩ := h.exists_advance hkept
    rw [iterate_succ hpeek ho (mt Int.compare_eq_gt.1 (not_lt.2 hle)), bind_of_ok hbody,
      bind_of_ok hadvance]
    exact ih (h.next hs hle hkept hadvance)

/-- A loop whose variable is never past the end runs out of turns, however many it may have. -/
theorem LoopHead.loop_outOfTurns {step : Option Int64} (hs : 1 ≤ (step.getD 1).toInt)
    (hstays : ∀ k, counted a.toInt (step.getD 1).toInt k ≤ nearest b.toInt) {body : Render ω Unit}
    (hkeeps : body.Keeps) (hok : ∀ r, ∃ r', body r = .ok () r') (turns : Nat) (r : Rendering ω) :
    ∃ r', Render.loop (ofLiterals name a b step) body turns r = .error .outOfTurns r' := by
  have henter : Counting turns name a b (step.getD 1) (.int b) (.int (step.getD 1)) turns
      ⟨r.bindings.push name ⟨Float.ofInt a.toInt⟩, r.context⟩ := counting_enter _ _
  obtain ⟨r', hiterate⟩ := Render.iterate_outOfTurns hs hstays hkeeps hok henter
  refine ⟨{ r' with bindings := r'.bindings.pop name }, ?_⟩
  rw [Render.loop_of_head rfl rfl (stepValue?_ofLiterals name a b step r.bindings) rfl]
  exact Render.withBinding_of_error hiterate

/-- Loops between literals with a step of at least one. Before every turn the variable is the start
gone up by as many steps as there were turns, each sum rounded to a double. The loop is bounded if
every step up to the end moves the variable, and it does not end if one of them does not; none is
lost less than `2 ^ 53` steps away from zero. Where nothing is rounded, as below `2 ^ 53`, the loop
has at most as many turns as there are values from the start to the end. Otherwise a rounding takes
something off each step, less than all of it as long as none is lost, and the loop has at most as
many turns as what is left of the steps allows. -/
theorem literal_loop_bounded [Page ω] (name : Text) (a b : Int64) (step : Option Int64)
    (hs : 1 ≤ (step.getD 1).toInt) :
    let s := (step.getD 1).toInt
    let head := LoopHead.ofLiterals name a b step
    (∀ (turns : Nat) (d : Document) (c : Context ω) (outer : List Text) (inner : Document)
        (stop stepValue : Value) (left : Nat) (r : Rendering ω),
        Point.Reaches turns (d.begin c) (.turn outer head inner stop stepValue left r) →
          ∃ cell, r.bindings.peek name = some cell ∧
            toInt? cell.number = some (counted a.toInt s (turns - left))) ∧
      ((∀ k, counted a.toInt s k ≤ nearest b.toInt →
        counted a.toInt s k < counted a.toInt s (k + 1)) → ∃ limit, head.BoundedBy ω limit) ∧
      (∀ k, counted a.toInt s k ≤ nearest b.toInt →
        counted a.toInt s (k + 1) = counted a.toInt s k →
          ∀ (turns : Nat) (inner : Document),
            (∀ r : Rendering ω, ∃ r', inner.run turns r = .ok () r') →
              ∀ r : Rendering ω, ∃ r',
                Render.loop head (inner.run turns) turns r = .error .outOfTurns r') ∧
      (∀ k, (counted a.toInt s k).natAbs < 2 ^ 53 * nearest s →
        counted a.toInt s k < counted a.toInt s (k + 1)) ∧
      (Unrounded a.toInt b.toInt s → head.BoundedBy ω (max 0 ((b.toInt - a.toInt) / s + 1)).toNat) ∧
      (a.toInt.natAbs ≤ 2 ^ 53 → b.toInt.natAbs ≤ 2 ^ 53 → s ≤ 2 ^ 53 → b.toInt + s ≤ 2 ^ 53 →
        Unrounded a.toInt b.toInt s) ∧
      (slack a.toInt b.toInt s < nearest s → head.BoundedBy ω
        ((nearest b.toInt - nearest a.toInt) / (nearest s - slack a.toInt b.toInt s) + 1).toNat) ∧
      ((nearest a.toInt).natAbs < 2 ^ 53 * nearest s →
        (nearest b.toInt).natAbs < 2 ^ 53 * nearest s →
          slack a.toInt b.toInt s < nearest s) := by
  intro s head
  have hpos : 0 < s := hs
  refine ⟨?_, ?_, ?_, fun k => counted_lt_succ hpos, ?_, ?_, ?_, slack_lt hpos⟩
  · intro turns d c outer inner stop stepValue left r hreaches
    obtain ⟨cell, hpeek, hcell, -⟩ :=
      (hreaches.counts (p := d.begin c) trivial name a b step rfl hs).exists_peek
    exact ⟨cell, hpeek, hcell⟩
  · intro hmoves
    obtain ⟨limit, hlimit⟩ := exists_lt_counted hmoves
    exact ⟨limit, LoopHead.boundedBy_of_lt hs hlimit⟩
  · intro k hk hlost turns inner hok r
    exact LoopHead.loop_outOfTurns hs (counted_le_of_eq hpos hlost hk)
      (Render.keeps_run inner turns) hok turns r
  · intro h
    have hpast := h.lt_counted
    rw [length_loopValues] at hpast
    refine LoopHead.boundedBy_of_lt hs ?_
    rwa [show (max 0 ((b.toInt - a.toInt) / s + 1)).toNat =
      ((b.toInt - a.toInt) / s + 1).toNat by omega]
  · exact fun ha hb hle hnext => unrounded_of_le hpos hle ha hb hnext
  · exact fun hslack => LoopHead.boundedBy_of_lt hs (lt_counted_of_slack hpos hslack)

theorem literal_loop_bounded_past_two_pow :
    let head := LoopHead.ofLiterals ['i'] 18014398509481984 18014398509482000 (some 4)
    (1 : Int) ≤ ((some 4).getD 1 : Int64).toInt ∧
      Unrounded 18014398509481984 18014398509482000 4 ∧ head.BoundedBy Capture 5 := by
  intro head
  have hs : (1 : Int) ≤ ((some 4).getD 1 : Int64).toInt := by decide
  have hunrounded : Unrounded 18014398509481984 18014398509482000 4 := by
    constructor
    case stop => decide +kernel
    case step => decide +kernel
    case values => decide +kernel
    case beyond => exact ⟨18014398509482004, by decide +kernel, by decide, by decide +kernel⟩
  exact ⟨hs, hunrounded, (literal_loop_bounded ['i'] 18014398509481984 18014398509482000 (some 4)
    hs).2.2.2.2.1 hunrounded⟩

/-- Past `2 ^ 53` the variable is rounded. A step of one is lost there, so that a loop with one
value does not end; and a loop whose steps are rounded to less than they are goes round more often
than it has values. -/
theorem literal_loop_rounded :
    let c : Context Capture := ⟨⟨.empty, .empty, .empty⟩, .empty⟩
    let lost := LoopHead.ofLiterals ['i'] 9007199254740992 9007199254740992 none
    let rounded := LoopHead.ofLiterals ['i'] 18014398509481984 18014398509482004 (some 5)
    ((9007199254740992 - 9007199254740992) / 1 + 1 : Int) = 1 ∧
      (∀ limit, ¬ lost.BoundedBy Capture limit) ∧
      (∃ d, parse ("\x7b$FOR i 9007199254740992 9007199254740992$\x7dx".toList ++
          "\x7b$END$\x7d".toList) = .ok d ∧ d = .loop lost (.text ['x'] .nil) .nil ∧
        ∀ turns, ∃ c', d.render turns c = .error .outOfTurns c') ∧
      ((18014398509482004 - 18014398509481984) / 5 + 1 : Int) = 5 ∧
      ∃ d, parse ("\x7b$FOR i 18014398509481984 18014398509482004 5$\x7dx".toList ++
          "\x7b$END$\x7d".toList) = .ok d ∧ d = .loop rounded (.text ['x'] .nil) .nil ∧
        ∃ c', d.render turnLimit c = .ok () c' ∧ c'.page.output = "xxxxxx" := by
  intro c lost rounded
  let n : Int64 := 9007199254740992
  have hstays : ∀ k, counted n.toInt ((none : Option Int64).getD 1).toInt k ≤ nearest n.toInt := by
    have hlost : counted n.toInt 1 (0 + 1) = counted n.toInt 1 0 := by decide +kernel
    exact counted_le_of_eq Int.one_pos hlost (by decide +kernel)
  have hturns : ∀ turns (r : Rendering Capture), ∃ r',
      Render.loop lost ((Document.text ['x'] .nil).run turns) turns r =
        .error .outOfTurns r' := fun turns r =>
    LoopHead.loop_outOfTurns (by decide) hstays (Render.keeps_run _ turns) (fun r => ⟨_, rfl⟩)
      turns r
  refine ⟨by decide, ?_, ⟨_, by decide +kernel, rfl, ?_⟩, by decide, _, by decide +kernel, rfl, _,
    eq_ok_of_failure? (by decide +kernel), by decide +kernel⟩
  · intro limit h
    obtain ⟨r', hloop⟩ := hturns (limit + 1) ⟨.empty, c⟩
    refine h.ends (limit + 1) _ (Render.keeps_run _ _) ?_ (Nat.lt_succ_self limit) _ _ hloop
    rintro r r' ⟨⟩
  · intro turns
    obtain ⟨r', hloop⟩ := hturns turns ⟨.empty, c⟩
    refine ⟨r'.context, ?_⟩
    unfold Document.render
    rw [Document.run, bind_of_error hloop]

end

end PageTemplate
