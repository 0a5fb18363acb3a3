import OS161.Framework.Turns
import OS161.Synchprobs.CatMouse

/-! # Cats and mice that wait forever

An animal waits in one of two places: on `cvBowl` for a bowl, and on `cvRound` for its turn. The
first is safe, since whoever puts a bowl back wakes somebody. The second is not: at the end of
its thread an animal gives the turn to the other kind without a lock and without a broadcast,
and the turn can go to a kind that has no animals.

`handsOver` says when the steps that set or announce the turn leave somebody who can go on; in a
run in which they always do, the animals are never stuck.
-/

namespace OS161.CatMouse

open Framework Function

/-- How far the animal is with its turns. -/
def Pc.stage (NumLoops : Nat) : Pc → Turns.Stage
  | .sleep i => if i < NumLoops then .ready else .last
  | .wantRound _ | .testRound _ | .wokenRound _ => .ready
  | .waitRound _ => .blocked
  | .enter _ | .wantBowl _ | .testBowl _ | .waitBowl _ | .wokenBowl _ | .search _ _ | .take _ _ | .eat _ _ | .eating _ _
  | .wantRoundAgain _ _ | .wantBowlAgain _ _ | .putBack _ _ | .clear _ _ | .leave _ | .switch _ | .broadcast _ => .inside
  | .ending => .last
  | .ended | .final | .finished => .gone

/-- It is in `cv_wait`. -/
def Pc.blocked : Pc → Bool
  | .waitRound _ | .waitBowl _ => true
  | _ => false

namespace World

def stages (s : World) (a : Animal) : Turns.Stage := (s.pc a).stage s.NumLoops

def anyAnimal (s : World) (f : Animal → Bool) : Bool :=
  ((List.range s.NumCats).any fun i => f ⟨.cat, i⟩) || (List.range s.NumMice).any fun i => f ⟨.mouse, i⟩

/-- The animal is in the round or past its last loop, or it is its turn and it does not wait for it. -/
def goesOn (s : World) (turn : Kind) (b : Animal) : Bool :=
  s.stages b = .inside || s.stages b = .last || (s.stages b = .ready && b.kind = turn)

end World

/-- The kind that `catmouse` lets eat first. -/
def firstTurn (p : Params) (s : World) : Kind :=
  let times := p.times.getD s.times
  if cint (times.MouseEatTime + times.MouseSleepTime) < cint (times.nEatTime + times.CatSleepTime) then .mouse else .cat

/-- After the step somebody can go on. -/
def handsOver (s : World) : Act → Bool
  | .catmouse p =>
    -- there is an animal of the kind that is first, or none at all
    (p.NumCats = 0 && p.NumMice = 0) ||
      (match firstTurn p s with
        | .cat => 0 < p.NumCats
        | .mouse => 0 < p.NumMice)
  | .animal a _ =>
    match s.pc a with
    | .broadcast i =>
      -- the animal does not come back; or some animal whose turn it is has not ended, or another is in the round or at
      -- its end
      s.NumLoops ≤ i + 1 ||
        s.anyAnimal fun b =>
          (s.stages b ≠ .gone && b.kind = s.turn) || (b ≠ a && (s.stages b = .inside || s.stages b = .last))
    | .ending =>
      -- the store that follows gives the turn to the other kind
      (s.anyAnimal fun b => b ≠ a && s.goesOn a.kind.other b) || !(s.anyAnimal fun b => b ≠ a && s.stages b ≠ .gone)
    | _ => true
  | .collect => true

/-- Some animal has not finished, and all those that have not are in `cv_wait`. -/
def Stuck (s : World) : Prop :=
  (∃ a, s.pc a ≠ .finished) ∧ ∀ a, s.pc a ≠ .finished → (s.pc a).blocked = true

structure LiveInv (s : World) : Prop where
  world : WorldInv s
  served : Slots.Served s.row s.bowlPlaces
  bowls : s.running = true → 0 < s.NumBowls
  turns : Turns.Inv Animal.kind s.turn s.stages

section Steps

variable {s s' t : World} {a b : Animal} {p : Pc} {w : Option Animal}

/-! ## Somebody can go on -/

theorem World.exists_of_anyAnimal {f : Animal → Bool} (h : s.anyAnimal f = true) : ∃ b, f b = true := by
  rcases Bool.or_eq_true_iff.mp h with h | h
  · obtain ⟨i, -, hi⟩ := List.any_eq_true.mp h
    exact ⟨_, hi⟩
  · obtain ⟨i, -, hi⟩ := List.any_eq_true.mp h
    exact ⟨_, hi⟩

theorem World.not_of_anyAnimal {f : Animal → Bool} (h : s.anyAnimal f = false) (hb : b.number < s.population b.kind) :
    f b = false := by
  obtain ⟨hcats, hmice⟩ := Bool.or_eq_false_iff.mp h
  obtain ⟨k, number⟩ := b
  cases k with
  | cat => exact Bool.not_eq_true _ ▸ List.any_eq_false.mp hcats number (List.mem_range.mpr hb)
  | mouse => exact Bool.not_eq_true _ ▸ List.any_eq_false.mp hmice number (List.mem_range.mpr hb)

theorem goesOn_iff {turn : Kind} : s.goesOn turn b = true ↔ Turns.GoesOn Animal.kind turn s.stages b := by
  simp [World.goesOn, Turns.GoesOn, or_assoc]

theorem World.stages_goto {f : Animal → Turns.Stage} (hf : t.stages = f) :
    (t.goto a p).stages = update f a (p.stage t.NumLoops) := by
  rw [← hf]
  exact comp_update (Pc.stage t.NumLoops) t.pc a p

theorem stages_goto (ht : t.pc = s.pc) (hloops : t.NumLoops = s.NumLoops) :
    (t.goto a p).stages = update s.stages a (p.stage s.NumLoops) := by
  rw [← hloops]
  apply World.stages_goto
  funext b
  rw [World.stages, World.stages, ht, hloops]

/-- The animal goes on outside the round. -/
theorem turns_stay (hstage : p.stage s.NumLoops = s.stages a) (ht : t.pc = s.pc)
    (hrun : t.NumLoops = s.NumLoops ∧ t.turn = s.turn) :
    Turns.Step Animal.kind a s.turn s.stages (t.goto a p).turn (t.goto a p).stages := by
  have hturn : (t.goto a p).turn = s.turn := hrun.2
  rw [stages_goto ht hrun.1, hstage, update_eq_self, hturn]
  exact .stay _ _

/-- The animal goes on in the round, where it may change the turn. -/
theorem turns_inside (hin : s.stages a = .inside) (hstage : p.stage s.NumLoops = .inside) (ht : t.pc = s.pc)
    (hloops : t.NumLoops = s.NumLoops) :
    Turns.Step Animal.kind a s.turn s.stages (t.goto a p).turn (t.goto a p).stages := by
  rw [stages_goto ht hloops, hstage, ← hin, update_eq_self]
  exact .change _ _ _ hin

theorem stages_eq {q : Pc} (hpc : s.pc a = q) : s.stages a = q.stage s.NumLoops := by
  rw [World.stages, hpc]

/-- An animal of the other kind is in the room when its number is not 0. -/
theorem WorldInv.someone_inside (h : WorldInv s) {k : Kind} (hk : s.EATING k ≠ 0) : ∃ b, s.stages b = .inside := by
  by_contra hnone
  apply hk
  apply h.door.count_zero
  intro b _
  by_contra hin
  apply hnone
  refine ⟨b, ?_⟩
  replace hin : (s.pc b).round.isIn ≠ false := hin
  rw [World.stages]
  cases hpc : s.pc b <;> rw [hpc] at hin <;> first | rfl | exact absurd rfl hin

/-- Who waits for a bowl, and who is woken, is in the round. -/
theorem stages_wakeBowl {bs : List (Option Kind)} {l : Option Animal} :
    World.stages { s with bowlStates := bs, pc := wakeBowl s.pc w, lockBowl := l } = s.stages := by
  funext b
  show (wakeBowl s.pc w b).stage s.NumLoops = (s.pc b).stage s.NumLoops
  rcases wakeBowl_cases s.pc w b with h | ⟨i, hi, h⟩
  · rw [h]
  · rw [h, hi]
    rfl

theorem stages_wakeRound {l : Option Animal} :
    World.stages { s with pc := wakeRound s.pc, lockRound := l } = Turns.Stage.awake ∘ s.stages := by
  funext b
  show (wakeRound s.pc b).stage s.NumLoops = ((s.pc b).stage s.NumLoops).awake
  rw [wakeRound]
  cases s.pc b with
  | sleep i =>
    rw [Pc.stage]
    split <;> rfl
  | _ => rfl

/-- **The step lemma**: what the animal does to the turn, and who can go on. -/
theorem simulation_turns (h : WorldInv s) (hok : handsOver s (.animal a w) = true)
    (hres : simulation a.kind a w s (s.pc a) = some (.ok s')) :
    Turns.Step Animal.kind a s.turn s.stages s'.turn s'.stages := by
  generalize hpc : s.pc a = pc at hres
  cases pc with
  | sleep i =>
    have hstage := stages_eq hpc
    cases hres
    rw [Pc.stage] at hstage
    split at hstage
    · rename_i hi
      rw [if_pos hi]
      exact turns_stay hstage.symm rfl ⟨rfl, rfl⟩
    · rename_i hi
      rw [if_neg hi]
      exact turns_stay hstage.symm rfl ⟨rfl, rfl⟩
  | testRound i =>
    have hready := stages_eq hpc
    rw [simulation] at hres
    split at hres
    · rename_i hwhy
      cases hres
      rw [stages_goto rfl rfl]
      apply Turns.Step.wait _ _ hready
      rcases hwhy with hwhy | hwhy
      · exact .inr (h.someone_inside hwhy)
      · exact .inl hwhy.symm
    · cases hres
      rw [stages_goto rfl rfl]
      exact .enter _ _ hready
  | wantRound i | wokenRound i =>
    obtain ⟨-, ⟨⟩⟩ := Option.ite_none_right_eq_some.mp hres
    exact turns_stay (stages_eq hpc).symm rfl ⟨rfl, rfl⟩
  | eat i y =>
    rw [simulation, eatBegin_run h hpc] at hres
    cases hres
    exact turns_inside (stages_eq hpc) rfl rfl rfl
  | eating i y =>
    rw [simulation, eatFinish_run h hpc] at hres
    cases hres
    exact turns_inside (stages_eq hpc) rfl rfl rfl
  | clear i y =>
    obtain ⟨-, ⟨⟩⟩ := Option.ite_none_right_eq_some.mp hres
    have hin : s.stages a = .inside := stages_eq hpc
    rw [World.stages_goto stages_wakeBowl]
    show Turns.Step _ _ _ _ _ (update s.stages a .inside)
    rw [← hin, update_eq_self]
    exact .stay _ _
  | leave i =>
    cases hres
    apply turns_inside (stages_eq hpc) ?_ rfl rfl
    split <;> rfl
  | broadcast i =>
    have hin : s.stages a = .inside := stages_eq hpc
    rw [handsOver, hpc] at hok
    cases hres
    rw [World.stages_goto stages_wakeRound]
    show Turns.Step _ _ _ _ _ (update (Turns.Stage.awake ∘ s.stages) a (if i + 1 < s.NumLoops then _ else _))
    by_cases hi : i + 1 < s.NumLoops
    · rw [if_pos hi]
      apply Turns.Step.leave _ _ hin
      rcases Bool.or_eq_true_iff.mp hok with hlast | hnext
      · exact absurd hi (Nat.not_lt.mpr (of_decide_eq_true hlast))
      · obtain ⟨b, hb⟩ := World.exists_of_anyAnimal hnext
        refine ⟨b, ?_⟩
        simpa using hb
    · rw [if_neg hi]
      exact .leaveLast _ _ hin
  | ending =>
    have hlast : s.stages a = .last := stages_eq hpc
    rw [handsOver, hpc] at hok
    cases hres
    rw [stages_goto rfl rfl]
    have hturn : World.turn ({ s with catsEat := a.kind.other == Kind.cat }.goto a .ended) = a.kind.other := by
      cases a.kind <;> rfl
    rw [hturn]
    apply Turns.Step.finish _ _ _ hlast
    rcases Bool.or_eq_true_iff.mp hok with hnext | hnone
    · obtain ⟨b, hb⟩ := World.exists_of_anyAnimal hnext
      obtain ⟨hne, hon⟩ := Bool.and_eq_true_iff.mp hb
      exact .inr ⟨b, of_decide_eq_true hne, goesOn_iff.mp hon⟩
    · refine .inl fun b hb => ?_
      by_cases hborn : b.number < s.population b.kind
      · have hgone := World.not_of_anyAnimal ((Bool.not_eq_true' _).mp hnone) hborn
        simpa [hb] using hgone
      · rw [World.stages, h.unborn b (Nat.not_lt.mp hborn)]
        rfl
  | ended | final =>
    cases hres
    exact turns_stay (stages_eq hpc).symm rfl ⟨rfl, rfl⟩
  | _ =>
    -- the animal waits or is done, or it is in the round before and after the step
    rw [simulation] at hres
    repeat' split at hres
    all_goals cases hres
    all_goals exact turns_inside (stages_eq hpc) rfl rfl rfl

/-! ## The whole system -/

theorem liveInv_booted : LiveInv booted where
  world := worldInv_booted
  served := .empty fun _ => rfl
  bowls := nofun
  turns := fun ⟨_, h⟩ => absurd rfl h

variable {p : Params}

theorem catmouse_turn (hs : catmouse p s = some s') : s'.turn = firstTurn p s := by
  rw [catmouse] at hs
  split at hs
  · cases hs
  · cases hs
    show (if (!decide _) = true then Kind.cat else Kind.mouse) = _
    rw [firstTurn]
    split <;> simp_all

theorem catmouse_numbers (hs : catmouse p s = some s') :
    0 < p.NumBowls ∧ 0 < p.NumLoops ∧ s'.NumBowls = p.NumBowls ∧ s'.NumLoops = p.NumLoops ∧
      s'.population .cat = p.NumCats ∧ s'.population .mouse = p.NumMice := by
  rw [catmouse] at hs
  split at hs
  · cases hs
  · rename_i hgo
    cases hs
    refine ⟨?_, ?_, rfl, rfl, rfl, rfl⟩
    · exact Nat.pos_of_ne_zero fun hzero => hgo (.inr (.inl hzero))
    · exact Nat.pos_of_ne_zero fun hzero => hgo (.inr (.inr hzero))

theorem turns_catmouse (hok : handsOver s (.catmouse p) = true) (hs : catmouse p s = some s') :
    Turns.Inv Animal.kind s'.turn s'.stages := by
  obtain ⟨-, hpos, -, hloops, hcats, hmice⟩ := catmouse_numbers hs
  -- the first animal of the kind whose turn it is can go on
  suffices hsome : (∃ a, s'.stages a ≠ .gone) → 0 < s'.population s'.turn by
    intro hleft
    refine ⟨⟨s'.turn, 0⟩, .inr (.inr ⟨?_, rfl⟩)⟩
    rw [World.stages, catmouse_pc hs, if_pos (hsome hleft), Pc.stage, hloops, if_pos hpos]
  rintro ⟨a, ha⟩
  rcases Bool.or_eq_true_iff.mp hok with hnone | hnext
  · exfalso
    simp only [Bool.and_eq_true, decide_eq_true_eq] at hnone
    have hzero : s'.population a.kind = 0 := by
      cases a.kind
      · exact hcats.trans hnone.1
      · exact hmice.trans hnone.2
    apply ha
    rw [World.stages, catmouse_pc hs, hzero, if_neg (Nat.not_lt_zero _)]
    rfl
  · rw [catmouse_turn hs]
    cases hk : firstTurn p s with
    | cat =>
      rw [hk] at hnext
      rw [hcats]
      exact of_decide_eq_true hnext
    | mouse =>
      rw [hk] at hnext
      rw [hmice]
      exact of_decide_eq_true hnext

theorem LiveInv.catmouse (h : LiveInv s) (hok : handsOver s (.catmouse p) = true)
    (hs : catmouse p s = some s') : LiveInv s' where
  world := h.world.catmouse hs
  served := by
    apply Slots.Served.empty
    intro a
    rw [World.bowlPlaces, catmouse_pc hs a]
    split <;> rfl
  bowls := by
    intro _
    obtain ⟨hpos, -, hbowls, -⟩ := catmouse_numbers hs
    rw [hbowls]
    exact hpos
  turns := turns_catmouse hok hs

theorem LiveInv.next (h : LiveInv s) {act : Act} (hok : handsOver s act = true) (hs : worldNext s act = some s') :
    LiveInv s' := by
  cases act with
  | catmouse p =>
    rw [worldNext, h.world.safe] at hs
    exact h.catmouse hok hs
  | animal a w =>
    obtain ⟨hstep, heffect⟩ := worldNext_animal h.world hs
    rw [animalStep_eq] at hstep
    constructor
    · exact h.world.effect heffect
    · exact h.served.step heffect.row
    · rw [heffect.same.running, heffect.same.NumBowls]
      exact h.bowls
    · exact h.turns.step (simulation_turns h.world hok hstep)
  | collect =>
    have hworld := h.world.next hs
    rw [worldNext] at hs
    split at hs
    · cases hs
      exact ⟨hworld, h.served, Bool.noConfusion, h.turns⟩
    · cases hs

theorem LiveInv.not_stuck (h : LiveInv s) : ¬ Stuck s := by
  rintro ⟨⟨a, ha⟩, hall⟩
  have hpc : ∀ b, s.pc b = .finished ∨ (∃ i, s.pc b = .waitRound i) ∨ ∃ i, s.pc b = .waitBowl i := by
    intro b
    by_cases hb : s.pc b = .finished
    · exact .inl hb
    · have hblocked := hall b hb
      cases hpb : s.pc b with
      | waitRound i => exact .inr (.inl ⟨i, rfl⟩)
      | waitBowl i => exact .inr (.inr ⟨i, rfl⟩)
      | _ =>
        rw [hpb] at hblocked
        exact nomatch hblocked
  have hleft : s.stages a ≠ .gone := by
    rw [World.stages]
    rcases hpc a with h | ⟨i, h⟩ | ⟨i, h⟩
    · exact absurd h ha
    · rw [h]
      exact nofun
    · rw [h]
      exact nofun
  -- whoever can go on waits for a bowl
  obtain ⟨b, hb⟩ := h.turns ⟨a, hleft⟩
  have hwaits : s.bowlPlaces b = .waiting := by
    rcases hpc b with h | ⟨i, h⟩ | ⟨i, h⟩
    · simp [Turns.GoesOn, World.stages, h, Pc.stage] at hb
    · simp [Turns.GoesOn, World.stages, h, Pc.stage] at hb
    · rw [World.bowlPlaces, h]
      rfl
  -- but nobody has a bowl, and all are available
  have hplace : ∀ c, (s.bowlPlaces c).slot = none ∧ (s.bowlPlaces c).served = false := by
    intro c
    rw [World.bowlPlaces]
    rcases hpc c with h | ⟨i, h⟩ | ⟨i, h⟩
    · rw [h]
      exact ⟨rfl, rfl⟩
    · rw [h]
      exact ⟨rfl, rfl⟩
    · rw [h]
      exact ⟨rfl, rfl⟩
  have hfree : s.availableBowls = s.bowlStates.length := h.world.row.all_free fun c => (hplace c).1
  have hnone : s.availableBowls ≤ 0 := h.served.none_free ⟨b, hwaits⟩ fun c => (hplace c).2
  have hrun : s.running = true := by
    by_contra hidle
    exact ha (h.world.idle (Bool.of_not_eq_true hidle) a)
  have hpos := h.bowls hrun
  rw [h.world.length] at hfree
  omega

theorem liveInv_reachable (h : (worldSystem.restrict fun s act => handsOver s act = true).Reachable s) : LiveInv s := by
  refine System.invariant ?_ ?_ h
  · intro s hs
    rw [show s = booted from hs]
    exact liveInv_booted
  · intro s act s' hinv hs
    exact hinv.next hs.1 hs.2

/-- **Nobody is stuck** in a run whose steps leave somebody who can go on. -/
theorem catmouse_not_stuck (h : (worldSystem.restrict fun s act => handsOver s act = true).Reachable s) : ¬ Stuck s :=
  (liveInv_reachable h).not_stuck

/-- One cat and one mouse: the mouse waits, the cat eats and ends, and the mouse goes on. -/
def oneEach : List Act :=
  .catmouse ⟨1, 1, 1, 1, none⟩ ::
    (List.replicate 3 (.animal ⟨.mouse, 0⟩ none) ++ List.replicate 21 (.animal ⟨.cat, 0⟩ none) ++
      List.replicate 8 (.animal ⟨.mouse, 0⟩ none))

theorem catmouse_not_stuck_oneEach : ∃ s, (worldSystem.restrict fun s act => handsOver s act = true).Reachable s ∧
    s.pc ⟨.cat, 0⟩ = .finished ∧ s.pc ⟨.mouse, 0⟩ = .eating 0 0 ∧ ¬ Stuck s := by
  obtain ⟨s, hreach, hcat, hmouse⟩ : ∃ s, (worldSystem.restrict fun s act => handsOver s act = true).Reachable s ∧
      s.pc ⟨.cat, 0⟩ = .finished ∧ s.pc ⟨.mouse, 0⟩ = .eating 0 0 :=
    System.exists_restricted (s := booted) (by rfl) oneEach (by decide +kernel)
  exact ⟨s, hreach, hcat, hmouse, catmouse_not_stuck hreach⟩

/-- Two bowls, two cats and a mouse. The first cat eats and ends; the second cat finds that it is
the turn of the mice. The mouse eats, and wakes the cat, whose turn it still is not; then the
mouse ends. -/
def lastMouse : List Act :=
  .catmouse ⟨2, 2, 1, 1, none⟩ ::
    (List.replicate 20 (.animal ⟨.cat, 0⟩ none) ++ List.replicate 3 (.animal ⟨.cat, 1⟩ none) ++
      List.replicate 16 (.animal ⟨.mouse, 0⟩ none) ++ List.replicate 2 (.animal ⟨.cat, 1⟩ none) ++
      List.replicate 4 (.animal ⟨.mouse, 0⟩ none))

/-- The second cat waits for its turn, which it is. -/
theorem catmouse_stuck_lastMouse : ∃ s, worldSystem.Reachable s ∧ s.running = true ∧ s.turn = .cat ∧ Stuck s := by
  obtain ⟨s, hreach, hrunning, hturn, hcats, hmice, hcat0, hcat1, hmouse⟩ : ∃ s, worldSystem.Reachable s ∧
      s.running = true ∧ s.turn = .cat ∧ s.NumCats = 2 ∧ s.NumMice = 1 ∧ s.pc ⟨.cat, 0⟩ = .finished ∧
      s.pc ⟨.cat, 1⟩ = .waitRound 0 ∧ s.pc ⟨.mouse, 0⟩ = .finished :=
    System.exists_reachable (s := booted) (by rfl) lastMouse (by decide +kernel)
  refine ⟨s, hreach, hrunning, hturn, ⟨⟨.cat, 1⟩, by rw [hcat1]; exact nofun⟩, ?_⟩
  intro ⟨k, n⟩ ha
  have hborn : n < s.population k := by
    by_contra hn
    exact ha ((worldInv_reachable hreach).unborn ⟨k, n⟩ (Nat.not_lt.mp hn))
  cases k with
  | cat =>
    replace hborn : n < s.NumCats := hborn
    obtain rfl | rfl : n = 0 ∨ n = 1 := by omega
    · exact absurd hcat0 ha
    · rw [hcat1]
      rfl
  | mouse =>
    replace hborn : n < s.NumMice := hborn
    obtain rfl : n = 0 := by omega
    exact absurd hmouse ha

end Steps

end OS161.CatMouse
