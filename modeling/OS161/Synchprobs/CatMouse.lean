import OS161.Framework.Room
import OS161.Framework.Slots
import OS161.Framework.TransitionSystem

/-! # Cats and mice

The model of the cat and mouse simulation (`kern/synchprobs/catmouse.c`) and of the code that
checks it (`kern/synchprobs/bowls.c`), over all the runs of `catmouse` after one boot. The locks
and condition variables are as specified: a lock has one holder, `cv_wait` gives up the lock and
waits in one step, `cv_signal` wakes one waiting thread and `cv_broadcast` all.

A step of an animal is what it does between two points at which others can see a difference; the
stores to `catsEat` and `done` at the end of a thread are steps of their own, since no lock
protects them. A bowl `y` is the one at `bowlStates[y]`, which the source calls bowl `x = y +
1`.
-/

namespace OS161.CatMouse

open Framework Function

inductive Kind where
  | cat
  | mouse
  deriving DecidableEq, Repr

def Kind.other : Kind → Kind
  | .cat => .mouse
  | .mouse => .cat

structure Animal where
  kind : Kind
  /-- `catnumber` or `mousenumber`. -/
  number : Nat
  deriving DecidableEq, Repr

/-- Where an animal is in its simulation, with the loop variable `i` and its bowl `y`. -/
inductive Pc where
  | sleep (i : Nat)
  /-- `lockRound` and the loop around `cv_wait(cvRound, lockRound)`. -/
  | wantRound (i : Nat)
  | testRound (i : Nat)
  | waitRound (i : Nat)
  | wokenRound (i : Nat)
  | enter (i : Nat)
  /-- `lockBowl` and the loop around `cv_wait(cvBowl, lockBowl)`. -/
  | wantBowl (i : Nat)
  | testBowl (i : Nat)
  | waitBowl (i : Nat)
  | wokenBowl (i : Nat)
  | search (i y : Nat)
  | take (i y : Nat)
  /-- Before and in the eating of `cat_eat` or `mouse_eat`. -/
  | eat (i y : Nat)
  | eating (i y : Nat)
  | wantRoundAgain (i y : Nat)
  | wantBowlAgain (i y : Nat)
  | putBack (i y : Nat)
  | clear (i y : Nat)
  | leave (i : Nat)
  | switch (i : Nat)
  | broadcast (i : Nat)
  /-- After the loop: the stores to `catsEat` and to `done`, and `V(CatMouseWait)`. -/
  | ending
  | ended
  | final
  | finished
  deriving DecidableEq, Repr

inductive CatPanic where
  /-- `KASSERT(bowlStates[x - 1] == '-')` -/
  | no_free_bowl
  /-- The panics of `cat_eat` and `mouse_eat`. -/
  | invalid_bowl
  | two_at_bowl
  | others_eating
  /-- Their assertions. -/
  | bowl_not_free
  | others_counted
  | none_counted
  | bowl_not_mine
  deriving DecidableEq, Repr

/-- The eating and sleeping times. -/
structure Times where
  nEatTime : Int
  CatSleepTime : Int
  MouseEatTime : Int
  MouseSleepTime : Int

/-- The global variables of both files, and where the animals are. -/
structure World where
  NumBowls : Nat
  NumCats : Nat
  NumMice : Nat
  NumLoops : Nat
  times : Times
  CAT_TIME : Int
  MOUSE_TIME : Int
  ALLOWED_TIME : Int
  done : Bool
  catsEat : Bool
  timeTaken : Int
  lockRound : Option Animal
  /-- `CATS_EATING` and `MICE_EATING` -/
  EATING : Kind → Int
  lockBowl : Option Animal
  /-- A bowl `'-'` is `none`, `'c'` and `'m'` are `some`. -/
  bowlStates : List (Option Kind)
  availableBowls : Int
  bowls : List (Option Kind)
  num_bowls : Nat
  /-- `eating_cats_count` and `eating_mice_count` -/
  eating_count : Kind → Int
  pc : Animal → Pc
  /-- `catmouse` waits for the animals. -/
  running : Bool
  panicked : Option CatPanic

/-- Arithmetic on `int`. -/
def cint (x : Int) : Int := Int.bmod x (2 ^ 32)

namespace World

def goto (s : World) (a : Animal) (p : Pc) : World := { s with pc := update s.pc a p }

/-- The kind that `catsEat` lets eat. -/
def turn (s : World) : Kind := if s.catsEat then .cat else .mouse

def population (s : World) : Kind → Nat
  | .cat => s.NumCats
  | .mouse => s.NumMice

def time (s : World) : Kind → Int
  | .cat => s.CAT_TIME
  | .mouse => s.MOUSE_TIME

/-- All animals of the run are as `p` says. -/
def allAnimals (s : World) (p : Pc → Bool) : Bool :=
  ((List.range s.NumCats).all fun i => p (s.pc ⟨.cat, i⟩)) && (List.range s.NumMice).all fun i => p (s.pc ⟨.mouse, i⟩)

end World

def Pc.waitsBowl : Pc → Bool
  | .waitBowl _ => true
  | _ => false

/-- `cv_signal(cvBowl, lockBowl)`, which wakes `w`. -/
def wakeBowl (pc : Animal → Pc) : Option Animal → Animal → Pc
  | none => pc
  | some b =>
    match pc b with
    | .waitBowl i => update pc b (.wokenBowl i)
    | _ => pc

/-- It wakes a thread that waits, if there is one. -/
def World.mayWake (s : World) : Option Animal → Bool
  | some b => (s.pc b).waitsBowl
  | none => s.allAnimals fun p => !p.waitsBowl

/-- `cv_broadcast(cvRound, lockRound)` -/
def wakeRound (pc : Animal → Pc) (b : Animal) : Pc :=
  match pc b with
  | .waitRound i => .wokenRound i
  | p => p

/-! ## `bowls.c` -/

/-- `cat_eat` and `mouse_eat` up to the eating. -/
def eatBegin (k : Kind) (bowlnumber : Nat) (s : World) : Except CatPanic World :=
  if bowlnumber = 0 ∨ s.num_bowls < bowlnumber then .error .invalid_bowl
  else if s.bowls[bowlnumber - 1]? = some (some k) then .error .two_at_bowl
  else if 0 < s.eating_count k.other then .error .others_eating
  else if s.bowls[bowlnumber - 1]? ≠ some none then .error .bowl_not_free
  else if s.eating_count k.other ≠ 0 then .error .others_counted
  else
    .ok { s with eating_count := update s.eating_count k (s.eating_count k + 1)
                 bowls := s.bowls.set (bowlnumber - 1) (some k) }

/-- The rest of them. The mouse looks at its bowl after it has changed the count, the cat before: the same. -/
def eatFinish (k : Kind) (bowlnumber : Nat) (s : World) : Except CatPanic World :=
  if ¬ 0 < s.eating_count k then .error .none_counted
  else if s.bowls[bowlnumber - 1]? ≠ some (some k) then .error .bowl_not_mine
  else
    .ok { s with eating_count := update s.eating_count k (s.eating_count k - 1)
                 bowls := s.bowls.set (bowlnumber - 1) none }

/-! ## `catmouse.c` -/

/-- A step of `cat_simulation` or `mouse_simulation` by the animal `a`; `w` is the thread that a `cv_signal` wakes. -/
def simulation (k : Kind) (a : Animal) (w : Option Animal) (s : World) : Pc → Option (Except CatPanic World)
  | .sleep i => some (.ok (s.goto a (if i < s.NumLoops then .wantRound i else .ending)))
  | .wantRound i =>
    if s.lockRound = none then some (.ok ({ s with lockRound := some a }.goto a (.testRound i))) else none
  | .testRound i =>
    if s.EATING k.other ≠ 0 ∨ s.turn ≠ k then some (.ok ({ s with lockRound := none }.goto a (.waitRound i)))
    else some (.ok (s.goto a (.enter i)))
  | .waitRound _ => none
  | .wokenRound i =>
    if s.lockRound = none then some (.ok ({ s with lockRound := some a }.goto a (.testRound i))) else none
  | .enter i =>
    some (.ok ({ s with EATING := update s.EATING k (s.EATING k + 1), lockRound := none }.goto a (.wantBowl i)))
  | .wantBowl i =>
    if s.lockBowl = none then some (.ok ({ s with lockBowl := some a }.goto a (.testBowl i))) else none
  | .testBowl i =>
    if s.availableBowls = 0 then some (.ok ({ s with lockBowl := none }.goto a (.waitBowl i)))
    else some (.ok (s.goto a (.search i 0)))
  | .waitBowl _ => none
  | .wokenBowl i =>
    if s.lockBowl = none then some (.ok ({ s with lockBowl := some a }.goto a (.testBowl i))) else none
  | .search i y =>
    if y + 1 < s.NumBowls ∧ s.bowlStates[y]? ≠ some none then some (.ok (s.goto a (.search i (y + 1))))
    else if s.bowlStates[y]? ≠ some none then some (.error .no_free_bowl)
    else some (.ok ({ s with bowlStates := s.bowlStates.set y (some k) }.goto a (.take i y)))
  | .take i y =>
    some (.ok ({ s with availableBowls := s.availableBowls - 1, lockBowl := none }.goto a (.eat i y)))
  | .eat i y => some ((eatBegin k (y + 1) s).map (·.goto a (.eating i y)))
  | .eating i y => some ((eatFinish k (y + 1) s).map (·.goto a (.wantRoundAgain i y)))
  | .wantRoundAgain i y =>
    if s.lockRound = none then some (.ok ({ s with lockRound := some a }.goto a (.wantBowlAgain i y))) else none
  | .wantBowlAgain i y =>
    if s.lockBowl = none then some (.ok ({ s with lockBowl := some a }.goto a (.putBack i y))) else none
  | .putBack i y => some (.ok ({ s with availableBowls := s.availableBowls + 1 }.goto a (.clear i y)))
  | .clear i y =>
    if s.mayWake w then
      some (.ok ({ s with bowlStates := s.bowlStates.set y none, pc := wakeBowl s.pc w, lockBowl := none }.goto a
        (.leave i)))
    else none
  | .leave i =>
    let timeTaken := cint (s.timeTaken + s.time k)
    some (.ok ({ s with timeTaken := timeTaken, EATING := update s.EATING k (s.EATING k - 1) }.goto a
      (if s.ALLOWED_TIME ≤ timeTaken ∧ s.done = false then .switch i else .broadcast i)))
  | .switch i => some (.ok ({ s with catsEat := k.other == Kind.cat, timeTaken := 0 }.goto a (.broadcast i)))
  | .broadcast i => some (.ok ({ s with pc := wakeRound s.pc, lockRound := none }.goto a (.sleep (i + 1))))
  | .ending => some (.ok ({ s with catsEat := k.other == Kind.cat }.goto a .ended))
  | .ended => some (.ok ({ s with done := true }.goto a .final))
  | .final => some (.ok (s.goto a .finished))
  | .finished => none

def cat_simulation := simulation .cat

def mouse_simulation := simulation .mouse

def animalStep (s : World) (a : Animal) (w : Option Animal) : Option (Except CatPanic World) :=
  match a.kind with
  | .cat => cat_simulation a w s (s.pc a)
  | .mouse => mouse_simulation a w s (s.pc a)

/-- The arguments of `catmouse`; without times those of the run before stay. -/
structure Params where
  NumBowls : Nat
  NumCats : Nat
  NumMice : Nat
  NumLoops : Nat
  times : Option Times

/-- `catmouse`, up to the loop that waits for the animals. `CATS_EATING`, `MICE_EATING`, `done` and
`timeTaken` are what the run before has left. -/
def catmouse (p : Params) (s : World) : Option World :=
  if s.running ∨ p.NumBowls = 0 ∨ p.NumLoops = 0 then none
  else
    let times := p.times.getD s.times
    let CAT_TIME := cint (times.nEatTime + times.CatSleepTime)
    let MOUSE_TIME := cint (times.MouseEatTime + times.MouseSleepTime)
    let catsEat := !decide (MOUSE_TIME < CAT_TIME)
    some
      { s with
        NumBowls := p.NumBowls
        NumCats := p.NumCats
        NumMice := p.NumMice
        NumLoops := p.NumLoops
        times := times
        CAT_TIME := CAT_TIME
        MOUSE_TIME := MOUSE_TIME
        ALLOWED_TIME := cint ((if catsEat then MOUSE_TIME else CAT_TIME) * p.NumBowls)
        catsEat := catsEat
        lockRound := none
        lockBowl := none
        bowlStates := List.replicate p.NumBowls none
        availableBowls := p.NumBowls
        bowls := List.replicate p.NumBowls none
        num_bowls := p.NumBowls
        eating_count := fun _ => 0
        pc := fun a =>
          match a.kind with
          | .cat => if a.number < p.NumCats then .sleep 0 else .finished
          | .mouse => if a.number < p.NumMice then .sleep 0 else .finished
        running := true }

inductive Act where
  | catmouse (p : Params)
  | animal (a : Animal) (w : Option Animal)
  /-- `catmouse` has collected all animals and returns. -/
  | collect

def worldNext (s : World) : Act → Option World
  | .catmouse p => if s.panicked.isSome then none else catmouse p s
  | .animal a w =>
    if s.panicked.isSome then none
    else
      (animalStep s a w).map fun
        | .ok s' => s'
        | .error e => { s with panicked := some e }
  | .collect =>
    if s.panicked.isNone ∧ s.running ∧ s.allAnimals (fun p => p = .finished) then some { s with running := false }
    else none

/-- The variables as the compiler has initialised them. -/
def booted : World where
  NumBowls := 0
  NumCats := 0
  NumMice := 0
  NumLoops := 0
  times := { nEatTime := 1, CatSleepTime := 5, MouseEatTime := 3, MouseSleepTime := 3 }
  CAT_TIME := 0
  MOUSE_TIME := 0
  ALLOWED_TIME := 0
  done := false
  catsEat := true
  timeTaken := 0
  lockRound := none
  EATING := fun _ => 0
  lockBowl := none
  bowlStates := []
  availableBowls := 0
  bowls := []
  num_bowls := 0
  eating_count := fun _ => 0
  pc := fun _ => .finished
  running := false
  panicked := none

def worldSystem : System World Act := .ofNext (· = booted) worldNext

/-! ## The two locks -/

/-- Where the animal is with respect to the round, which is a room for one kind at a time. -/
def Pc.round : Pc → Room.Place
  | .testRound _ => .test
  | .enter _ => .enter
  | .wantBowl _ | .testBowl _ | .waitBowl _ | .wokenBowl _ | .search _ _ | .take _ _ | .eat _ _ | .eating _ _
  | .wantRoundAgain _ _ => .inside
  | .wantBowlAgain _ _ | .putBack _ _ | .clear _ _ | .leave _ => .leaving
  | .switch _ | .broadcast _ => .left
  | .sleep _ | .wantRound _ | .waitRound _ | .wokenRound _ | .ending | .ended | .final | .finished => .out

/-- Where it is with respect to the bowls, which are slots. -/
def Pc.bowl : Pc → Slots.Place
  | .testBowl _ => .test
  | .waitBowl _ => .waiting
  | .wokenBowl _ => .woken
  | .search _ y => .search y
  | .take _ y => .take y
  | .eat _ y | .eating _ y | .wantRoundAgain _ y | .wantBowlAgain _ y => .own y
  | .putBack _ y => .give y
  | .clear _ y => .clear y
  | .sleep _ | .wantRound _ | .testRound _ | .waitRound _ | .wokenRound _ | .enter _ | .wantBowl _ | .leave _
  | .switch _ | .broadcast _ | .ending | .ended | .final | .finished => .away

/-- The bowl that it eats from. -/
def Pc.eats : Pc → Option Nat
  | .eating _ y => some y
  | _ => none

namespace World

def door (s : World) : Room.Door Animal Kind := { lock := s.lockRound, count := s.EATING }

def row (s : World) : Slots.Row Animal Kind := { lock := s.lockBowl, slots := s.bowlStates, free := s.availableBowls }

def rounds (s : World) (a : Animal) : Room.Place := (s.pc a).round

def bowlPlaces (s : World) (a : Animal) : Slots.Place := (s.pc a).bowl

end World

/-- The state of `bowls.c`: what it says of the animals that eat is right. -/
structure Checker (s : World) : Prop where
  length : s.bowls.length = s.NumBowls
  num : s.num_bowls = s.NumBowls
  taken : ∀ a y, (s.pc a).eats = some y → s.bowls[y]? = some (some a.kind)
  eater : ∀ y k, s.bowls[y]? = some (some k) → ∃ a, (s.pc a).eats = some y
  count : ∀ k, ∃ n : Nat, s.eating_count k = n ∧ Tally (fun a => a.kind = k ∧ (s.pc a).eats ≠ none) n

structure WorldInv (s : World) : Prop where
  safe : s.panicked = none
  unborn : ∀ a, s.population a.kind ≤ a.number → s.pc a = .finished
  idle : s.running = false → ∀ a, s.pc a = .finished
  door : Room.Inv Animal.kind s.door s.rounds
  row : Slots.Inv Animal.kind s.row s.bowlPlaces
  length : s.bowlStates.length = s.NumBowls
  checker : Checker s

variable {y : Nat}

theorem eats_bowl {p : Pc} (h : p.eats = some y) : p.bowl = .own y ∧ p.round = .inside := by
  cases p with
  | eating i z =>
    cases h
    exact ⟨rfl, rfl⟩
  | _ => exact nomatch h

section Steps

variable {s s' t : World} {a b : Animal} {p : Pc} {k : Kind} {w : Option Animal}

theorem goto_self (s : World) (a : Animal) (p : Pc) : (s.goto a p).pc a = p := by
  simp [World.goto]

theorem goto_of_ne (s : World) (p : Pc) (h : b ≠ a) : (s.goto a p).pc b = s.pc b := by
  simp [World.goto, h]

theorem bowlPlaces_eq {q : Pc} (hpc : s.pc a = q) : s.bowlPlaces a = q.bowl := congrArg Pc.bowl hpc

theorem bowlPlaces_goto (s : World) (a : Animal) (p : Pc) :
    (s.goto a p).bowlPlaces = update s.bowlPlaces a p.bowl :=
  comp_update Pc.bowl s.pc a p

/-- A step does not change what `catmouse` has set up. -/
structure SameRun (s t : World) : Prop where
  NumBowls : t.NumBowls = s.NumBowls
  population : t.population = s.population
  running : t.running = s.running
  panicked : t.panicked = s.panicked

/-- What a step of an animal does, for each of the parts of the state. -/
structure Effect (s : World) (a : Animal) (s' : World) : Prop where
  same : SameRun s s'
  active : s.pc a ≠ .finished
  door : Room.Step Animal.kind a s.door (s.rounds a) s'.door (s'.rounds a)
  rounds : ∀ b, b ≠ a → s'.rounds b = s.rounds b
  row : Slots.Step Animal.kind a s.row s.bowlPlaces s'.row s'.bowlPlaces
  finished : ∀ b, b ≠ a → s.pc b = .finished → s'.pc b = .finished
  checker : Checker s'

theorem slots_length {t : Animal} {r r' : Slots.Row Animal Kind} {place place' : Animal → Slots.Place}
    (h : Slots.Step Animal.kind t r place r' place') : r'.slots.length = r.slots.length := by
  cases h with
  | mark x _ _ => exact List.length_set
  | clear x _ _ _ _ => exact List.length_set
  | _ => rfl

theorem WorldInv.effect (h : WorldInv s) (he : Effect s a s') : WorldInv s' where
  safe := he.same.panicked.trans h.safe
  unborn := by
    intro b hb
    rw [he.same.population] at hb
    have hfin := h.unborn b hb
    by_cases hba : b = a
    · rw [hba] at hfin
      exact absurd hfin he.active
    · exact he.finished b hba hfin
  idle := by
    intro hrun
    rw [he.same.running] at hrun
    exact absurd (h.idle hrun a) he.active
  door := by
    have hplaces : s'.rounds = update s.rounds a (s'.rounds a) := by
      funext b
      by_cases hba : b = a
      · rw [hba, update_self]
      · rw [update_of_ne hba, he.rounds b hba]
    rw [hplaces]
    exact h.door.step he.door
  row := h.row.step he.row
  length := by
    have hlen := slots_length he.row
    rw [he.same.NumBowls, ← h.length]
    exact hlen
  checker := he.checker

/-- Nobody starts or stops to eat. -/
theorem Checker.same (h : Checker s) (hs : s'.NumBowls = s.NumBowls ∧ s'.num_bowls = s.num_bowls)
    (hb : s'.bowls = s.bowls ∧ s'.eating_count = s.eating_count) (he : ∀ b, (s'.pc b).eats = (s.pc b).eats) :
    Checker s' where
  length := by rw [hb.1, hs.1, h.length]
  num := by rw [hs.1, hs.2, h.num]
  taken := by
    intro a y ha
    rw [he] at ha
    rw [hb.1]
    exact h.taken a y ha
  eater := by
    intro y k hy
    rw [hb.1] at hy
    obtain ⟨a, ha⟩ := h.eater y k hy
    exact ⟨a, (he a).trans ha⟩
  count := by
    intro k
    obtain ⟨n, hn, htally⟩ := h.count k
    refine ⟨n, by rw [hb.2, hn], htally.congr ?_⟩
    intro a
    rw [he]

/-- The other animals are where they were, or have been woken. -/
structure Woken (s t : World) : Prop where
  round : ∀ b, (t.pc b).round = (s.pc b).round
  eats : ∀ b, (t.pc b).eats = (s.pc b).eats
  finished : ∀ b, s.pc b = .finished → t.pc b = .finished

theorem Woken.refl (h : t.pc = s.pc) : Woken s t where
  round := fun b => by rw [h]
  eats := fun b => by rw [h]
  finished := fun b hb => by rw [h, hb]

theorem Effect.of_goto (hw : Woken s t) (hsame : SameRun s t) (hactive : s.pc a ≠ .finished)
    (hdoor : Room.Step Animal.kind a s.door (s.pc a).round t.door p.round)
    (hrow : Slots.Step Animal.kind a s.row s.bowlPlaces t.row (update t.bowlPlaces a p.bowl))
    (hchecker : Checker (t.goto a p)) : Effect s a (t.goto a p) where
  same := { hsame with }
  active := hactive
  door := by
    have hplace : (t.goto a p).rounds a = p.round := congrArg Pc.round (goto_self t a p)
    rw [hplace]
    exact hdoor
  rounds := by
    intro b hba
    show ((t.goto a p).pc b).round = _
    rw [goto_of_ne t p hba]
    exact hw.round b
  row := by
    rw [bowlPlaces_goto]
    exact hrow
  finished := by
    intro b hba hfin
    rw [goto_of_ne t p hba]
    exact hw.finished b hfin
  checker := hchecker

/-- A step that does not start or stop to eat. -/
theorem Effect.goto (h : WorldInv s) (hw : Woken s t) (hsame : SameRun s t) (hactive : s.pc a ≠ .finished)
    (hb : t.bowls = s.bowls ∧ t.eating_count = s.eating_count ∧ t.num_bowls = s.num_bowls)
    (heats : p.eats = (s.pc a).eats) (hdoor : Room.Step Animal.kind a s.door (s.pc a).round t.door p.round)
    (hrow : Slots.Step Animal.kind a s.row s.bowlPlaces t.row (update t.bowlPlaces a p.bowl)) :
    Effect s a (t.goto a p) := by
  apply Effect.of_goto hw hsame hactive hdoor hrow
  apply h.checker.same
  · exact ⟨hsame.NumBowls, hb.2.2⟩
  · exact ⟨hb.1, hb.2.1⟩
  intro b
  by_cases hba : b = a
  · rw [hba, goto_self, heats]
  · rw [goto_of_ne t p hba, hw.eats b]

/-- The animal moves, and is for the bowls where it was. -/
theorem row_stay (hp : p.bowl = (s.pc a).bowl) (hplaces : t.bowlPlaces = s.bowlPlaces) (hrow : t.row = s.row) :
    Slots.Step Animal.kind a s.row s.bowlPlaces t.row (update t.bowlPlaces a p.bowl) := by
  have hself : update t.bowlPlaces a p.bowl = s.bowlPlaces := by
    rw [hplaces, hp]
    exact update_eq_self a s.bowlPlaces
  rw [hself, hrow]
  exact .stay _ _

theorem door_stay (hp : p.round = (s.pc a).round) (hne : p.round ≠ .enter) (hdoor : t.door = s.door) :
    Room.Step Animal.kind a s.door (s.pc a).round t.door p.round := by
  rw [hp] at hne ⊢
  rw [hdoor]
  exact .stay _ _ hne

/-! ### Wake-ups -/

theorem wakeRound_cases (pc : Animal → Pc) (b : Animal) :
    wakeRound pc b = pc b ∨ ∃ i, pc b = .waitRound i ∧ wakeRound pc b = .wokenRound i := by
  unfold wakeRound
  split
  · rename_i i hi
    exact .inr ⟨i, hi, rfl⟩
  · exact .inl rfl

theorem wakeBowl_cases (pc : Animal → Pc) (w : Option Animal) (b : Animal) :
    wakeBowl pc w b = pc b ∨ ∃ i, pc b = .waitBowl i ∧ wakeBowl pc w b = .wokenBowl i := by
  cases w with
  | none => exact .inl rfl
  | some v =>
    cases hv : pc v with
    | waitBowl i =>
      rw [wakeBowl, hv]
      by_cases hbv : b = v
      · subst hbv
        exact .inr ⟨i, hv, update_self _ _ _⟩
      · exact .inl (update_of_ne hbv _ _)
    | _ =>
      rw [wakeBowl, hv]
      exact .inl rfl

/-- A thread that is woken stays where it is, as far as the others can see. -/
theorem Woken.of_cases (h : ∀ b, t.pc b = s.pc b ∨ ((t.pc b).round = (s.pc b).round ∧ (t.pc b).eats = (s.pc b).eats ∧
    s.pc b ≠ .finished)) : Woken s t := by
  constructor
  · intro b
    rcases h b with h | h
    · exact congrArg Pc.round h
    · exact h.1
  · intro b
    rcases h b with h | h
    · exact congrArg Pc.eats h
    · exact h.2.1
  · intro b hb
    rcases h b with h | h
    · exact h.trans hb
    · exact absurd hb h.2.2

variable {l : Option Animal}

theorem woken_wakeRound : Woken s { s with pc := wakeRound s.pc, lockRound := l } := by
  apply Woken.of_cases
  intro b
  show wakeRound s.pc b = _ ∨ (wakeRound s.pc b).round = _ ∧ (wakeRound s.pc b).eats = _ ∧ _
  rcases wakeRound_cases s.pc b with h | ⟨i, hi, h⟩
  · exact .inl h
  · rw [h, hi]
    exact .inr ⟨rfl, rfl, nofun⟩

theorem wakeRound_bowl (pc : Animal → Pc) (b : Animal) : (wakeRound pc b).bowl = (pc b).bowl := by
  rcases wakeRound_cases pc b with h | ⟨i, hi, h⟩
  · rw [h]
  · rw [h, hi]
    rfl

/-- `w` waits for a bowl. -/
theorem waitsBowl_iff : p.waitsBowl = true ↔ p.bowl = .waiting := by
  cases p <;> simp [Pc.waitsBowl, Pc.bowl]

theorem wakeBowl_bowl (pc : Animal → Pc) (hw : ∀ b, w = some b → (pc b).waitsBowl = true) :
    (fun b => (wakeBowl pc w b).bowl) = Slots.wake (fun b => (pc b).bowl) w := by
  cases w with
  | none => rfl
  | some b =>
    have hb := hw b rfl
    cases hpc : pc b with
    | waitBowl i =>
      rw [wakeBowl, hpc, Slots.wake]
      exact comp_update Pc.bowl pc b (.wokenBowl i)
    | _ =>
      rw [hpc] at hb
      cases hb

theorem woken_wakeBowl {bs : List (Option Kind)} :
    Woken s { s with bowlStates := bs, pc := wakeBowl s.pc w, lockBowl := l } := by
  apply Woken.of_cases
  intro b
  show wakeBowl s.pc w b = _ ∨ (wakeBowl s.pc w b).round = _ ∧ (wakeBowl s.pc w b).eats = _ ∧ _
  rcases wakeBowl_cases s.pc w b with h | ⟨i, hi, h⟩
  · exact .inl h
  · rw [h, hi]
    exact .inr ⟨rfl, rfl, nofun⟩

/-! ### Eating -/

theorem Kind.other_ne (k : Kind) : k.other ≠ k := by
  cases k <;> exact nofun

theorem Kind.eq_other {k l : Kind} (h : l ≠ k) : l = k.other := by
  cases k <;> cases l <;> first | rfl | exact absurd rfl h

/-- An animal that eats is in the round, and owns its bowl. -/
theorem WorldInv.eats_alone (h : WorldInv s) (ha : (s.pc a).eats = some y) (hb : (s.rounds b).isIn = true) :
    a.kind = b.kind := by
  have hin : (s.rounds a).isIn = true := by
    show (s.pc a).round.isIn = true
    rw [(eats_bowl ha).2]
    rfl
  exact h.door.alone a b hin hb

theorem WorldInv.eats_owner (h : WorldInv s) (ha : (s.pc a).eats = some y) (hb : (s.bowlPlaces b).slot = some y) :
    a = b := by
  have hslot : (s.bowlPlaces a).slot = some y := by
    show (s.pc a).bowl.slot = some y
    rw [(eats_bowl ha).1]
    rfl
  exact h.row.unique a b y hslot hb

theorem WorldInv.owned_lt (h : WorldInv s) (ha : (s.bowlPlaces a).slot = some y) : y < s.NumBowls := by
  have hmark : s.bowlStates[y]? = some (some a.kind) := h.row.marked a y ha
  rw [← h.length]
  exact (List.getElem?_eq_some_iff.mp hmark).1

variable {i y : Nat}

section

variable (h : WorldInv s)
include h

/-- An animal may begin to eat from its bowl. -/
theorem WorldInv.eatBegin (hpc : s.pc a = .eat i y) :
    s.bowls[y]? = some none ∧ s.eating_count a.kind.other = 0 ∧ y < s.NumBowls := by
  have hown : (s.bowlPlaces a).slot = some y := congrArg Slots.Place.slot (bowlPlaces_eq hpc)
  have hin : (s.rounds a).isIn = true := by
    show (s.pc a).round.isIn = true
    rw [hpc]
    rfl
  have hlt := h.owned_lt hown
  refine ⟨?_, ?_, hlt⟩
  · cases hy : s.bowls[y]? with
    | none =>
      have hlen := List.getElem?_eq_none_iff.mp hy
      rw [h.checker.length] at hlen
      omega
    | some v =>
      cases v with
      | none => rfl
      | some k =>
        -- who eats from it would own it
        obtain ⟨b, hb⟩ := h.checker.eater y k hy
        have hba := h.eats_owner hb hown
        rw [hba, hpc] at hb
        exact nomatch hb
  · obtain ⟨n, hn, htally⟩ := h.checker.count a.kind.other
    have hzero : n = 0 := by
      apply htally.eq_zero
      intro b ⟨hkind, hb⟩
      obtain ⟨z, hz⟩ := Option.ne_none_iff_exists'.mp hb
      exact a.kind.other_ne (hkind.symm.trans (h.eats_alone hz hin))
    rw [hn, hzero]
    rfl

/-- An animal begins or stops to eat from its bowl: `v` is what `bowls.c` then says of the bowl. -/
theorem Checker.move {v : Option Kind} {d : Int}
    (hown : (s.bowlPlaces a).slot = some y) (hold : ∀ z, (s.pc a).eats = some z → z = y)
    (hnew : p.eats = v.map fun _ => y) (hv : ∀ k, v = some k → k = a.kind)
    (hcount : ∀ n : Nat, s.eating_count a.kind = n → Tally (fun b => b.kind = a.kind ∧ (s.pc b).eats ≠ none) n →
      ∃ m : Nat, s.eating_count a.kind + d = m ∧
        Tally (fun b => b.kind = a.kind ∧ (update s.pc a p b).eats ≠ none) m) :
    Checker ({ s with eating_count := update s.eating_count a.kind (s.eating_count a.kind + d)
                      bowls := s.bowls.set y v }.goto a p) := by
  have hlen : y < s.bowls.length := by
    rw [h.checker.length]
    exact h.owned_lt hown
  let pc' := update s.pc a p
  have hself : (pc' a).eats = v.map fun _ => y := (congrArg Pc.eats (update_self a _ s.pc)).trans hnew
  have hother : ∀ b, b ≠ a → (pc' b).eats = (s.pc b).eats := fun b hb =>
    congrArg Pc.eats (update_of_ne hb _ s.pc)
  constructor
  · exact List.length_set.trans h.checker.length
  · exact h.checker.num
  · intro b z (hb : (pc' b).eats = some z)
    show (s.bowls.set y v)[z]? = _
    rw [List.getElem?_set]
    by_cases hba : b = a
    · rw [hba, hself] at hb
      obtain ⟨k, hk, rfl⟩ := Option.map_eq_some_iff.mp hb
      rw [if_pos rfl, if_pos hlen, hk, hv k hk, hba]
    · rw [hother b hba] at hb
      have hzy : y ≠ z := by
        intro heq
        rw [← heq] at hb
        exact hba (h.eats_owner hb hown)
      rw [if_neg hzy]
      exact h.checker.taken b z hb
  · intro z k hz
    show ∃ b, (pc' b).eats = some z
    replace hz : (s.bowls.set y v)[z]? = some (some k) := hz
    rw [List.getElem?_set] at hz
    by_cases hzy : y = z
    · rw [if_pos hzy, if_pos hlen] at hz
      exact ⟨a, by rw [hself, Option.some.inj hz, hzy]; rfl⟩
    · rw [if_neg hzy] at hz
      obtain ⟨b, hb⟩ := h.checker.eater z k hz
      have hba : b ≠ a := by
        intro heq
        rw [heq] at hb
        exact hzy (hold z hb).symm
      exact ⟨b, (hother b hba).trans hb⟩
  · intro k
    obtain ⟨n, hn, htally⟩ := h.checker.count k
    show ∃ m : Nat, update s.eating_count a.kind _ k = m ∧ Tally (fun b => b.kind = k ∧ (pc' b).eats ≠ none) m
    by_cases hk : k = a.kind
    · subst hk
      rw [update_self]
      exact hcount n hn htally
    · rw [update_of_ne hk]
      refine ⟨n, hn, htally.congr fun b => ?_⟩
      by_cases hba : b = a
      · rw [hba]
        exact ⟨fun hb => absurd hb.1.symm hk, fun hb => absurd hb.1.symm hk⟩
      · rw [hother b hba]

/-- The state after an animal has begun to eat. -/
theorem Checker.begin (hpc : s.pc a = .eat i y) :
    Checker ({ s with eating_count := update s.eating_count a.kind (s.eating_count a.kind + 1)
                      bowls := s.bowls.set y (some a.kind) }.goto a (.eating i y)) := by
  have hmine : (s.pc a).eats = none := congrArg Pc.eats hpc
  refine .move h (congrArg Slots.Place.slot (bowlPlaces_eq hpc)) ?_ rfl ?_ ?_
  · rw [hmine]
    exact nofun
  · exact fun k hk => (Option.some.inj hk).symm
  · intro n hn htally
    refine ⟨n + 1, by rw [hn]; rfl, htally.enter (t := a) ?_ ?_ ?_⟩
    · intro b hb
      rw [update_of_ne hb]
    · rw [hmine]
      exact fun hne => hne.2 rfl
    · rw [update_self]
      exact ⟨rfl, nofun⟩

/-- And after it has finished. -/
theorem Checker.finish (hpc : s.pc a = .eating i y) :
    Checker ({ s with eating_count := update s.eating_count a.kind (s.eating_count a.kind - 1)
                      bowls := s.bowls.set y none }.goto a (.wantRoundAgain i y)) := by
  have hmine : (s.pc a).eats = some y := congrArg Pc.eats hpc
  refine .move h (congrArg Slots.Place.slot (bowlPlaces_eq hpc)) ?_ rfl nofun (d := -1) ?_
  · rw [hmine]
    exact fun z hz => (Option.some.inj hz).symm
  · intro n hn htally
    have hthere : a.kind = a.kind ∧ (s.pc a).eats ≠ none := ⟨rfl, by rw [hmine]; exact nofun⟩
    have hpos := htally.pos hthere
    refine ⟨n - 1, by rw [hn]; omega, htally.leave (t := a) ?_ hthere ?_⟩
    · intro b hb
      rw [update_of_ne hb]
    · rw [update_self]
      exact fun hne => hne.2 rfl

/-! ### Every step -/

/-- A step that changes only what the round protects. -/
theorem Effect.atRound {q : Pc} (hpc : s.pc a = q) (hq : q ≠ .finished)
    {n : Kind → Int} {time : Int} {turn last : Bool} (heats : p.eats = q.eats) (hbowl : p.bowl = q.bowl)
    (hdoor : Room.Step Animal.kind a s.door q.round { lock := l, count := n } p.round) :
    Effect s a ({ s with lockRound := l, EATING := n, timeTaken := time, catsEat := turn, done := last }.goto a p) := by
  subst hpc
  exact .goto h (.refl rfl) ⟨rfl, rfl, rfl, rfl⟩ hq ⟨rfl, rfl, rfl⟩ heats hdoor (row_stay hbowl rfl rfl)

/-- A step that changes only what the lock of the bowls protects. -/
theorem Effect.atBowls {q : Pc} (hpc : s.pc a = q) (hq : q ≠ .finished)
    {bs : List (Option Kind)} {n : Int} (heats : p.eats = q.eats) (hround : p.round = q.round)
    (hne : p.round ≠ .enter) (hrow : Slots.Step Animal.kind a s.row s.bowlPlaces
      { lock := l, slots := bs, free := n } (update s.bowlPlaces a p.bowl)) :
    Effect s a ({ s with lockBowl := l, bowlStates := bs, availableBowls := n }.goto a p) := by
  subst hpc
  exact .goto h (.refl rfl) ⟨rfl, rfl, rfl, rfl⟩ hq ⟨rfl, rfl, rfl⟩ heats (door_stay hround hne rfl) hrow

theorem eatBegin_run (hpc : s.pc a = .eat i y) :
    eatBegin a.kind (y + 1) s =
      .ok { s with eating_count := update s.eating_count a.kind (s.eating_count a.kind + 1)
                   bowls := s.bowls.set y (some a.kind) } := by
  obtain ⟨hfree, hzero, hlt⟩ := h.eatBegin hpc
  have hnum : ¬ (y + 1 = 0 ∨ s.num_bowls < y + 1) := by
    rw [h.checker.num]
    omega
  have htwo : ¬ s.bowls[y]? = some (some a.kind) := by
    rw [hfree]
    exact nofun
  rw [CatMouse.eatBegin, if_neg hnum, Nat.add_sub_cancel, if_neg htwo, if_neg (by omega),
    if_neg (not_not.mpr hfree), if_neg (not_not.mpr hzero)]

theorem eatFinish_run (hpc : s.pc a = .eating i y) :
    eatFinish a.kind (y + 1) s =
      .ok { s with eating_count := update s.eating_count a.kind (s.eating_count a.kind - 1)
                   bowls := s.bowls.set y none } := by
  have heats : (s.pc a).eats = some y := congrArg Pc.eats hpc
  have hmark := h.checker.taken a y heats
  obtain ⟨n, hn, htally⟩ := h.checker.count a.kind
  have hpos := htally.pos (t := a) ⟨rfl, by rw [heats]; exact nofun⟩
  rw [eatFinish, Nat.add_sub_cancel, if_neg (by omega), if_neg (not_not.mpr hmark)]

end

theorem World.of_allAnimals (s : World) {f : Pc → Bool} (hall : s.allAnimals f = true)
    (hb : b.number < s.population b.kind) : f (s.pc b) = true := by
  obtain ⟨hcats, hmice⟩ := Bool.and_eq_true_iff.mp hall
  obtain ⟨k, number⟩ := b
  cases k with
  | cat => exact List.all_eq_true.mp hcats number (List.mem_range.mpr hb)
  | mouse => exact List.all_eq_true.mp hmice number (List.mem_range.mpr hb)

/-- A thread that finds nobody to wake has looked at all of them. -/
theorem WorldInv.nobody_waits (h : WorldInv s) (hall : (s.allAnimals fun p => !p.waitsBowl) = true) (b : Animal) :
    s.bowlPlaces b ≠ .waiting := by
  have hnot : (s.pc b).waitsBowl = false := by
    by_cases hb : s.population b.kind ≤ b.number
    · rw [h.unborn b hb]
      rfl
    · exact (Bool.not_eq_true' _).mp (s.of_allAnimals hall (Nat.not_le.mp hb))
  intro hw
  exact nomatch hnot.symm.trans (waitsBowl_iff.mpr hw)

/-- **The step lemma**: no assertion fails in a step of an animal, and it does what the room and the slots allow. -/
theorem simulation_effect (h : WorldInv s) {res : Except CatPanic World}
    (hres : simulation a.kind a w s (s.pc a) = some res) : ∃ s', res = .ok s' ∧ Effect s a s' := by
  generalize hpc : s.pc a = pc at hres
  cases pc with
  | sleep i =>
    cases hres
    refine ⟨_, rfl, ?_⟩
    split <;> exact .atRound h hpc nofun rfl rfl (.stay _ _ nofun)
  | testRound i =>
    rw [simulation] at hres
    split at hres
    · cases hres
      exact ⟨_, rfl, .atRound h hpc nofun rfl rfl (.wait _)⟩
    · rename_i hpass
      cases hres
      refine ⟨_, rfl, .atRound h hpc nofun rfl rfl (.pass _ ?_)⟩
      intro k hk
      rw [Kind.eq_other hk]
      by_contra hne
      exact hpass (.inl hne)
  | wantRound i | wokenRound i =>
    obtain ⟨hfree, ⟨⟩⟩ := Option.ite_none_right_eq_some.mp hres
    exact ⟨_, rfl, .atRound h hpc nofun rfl rfl (.acquire _ hfree)⟩
  | enter i =>
    cases hres
    exact ⟨_, rfl, .atRound h hpc nofun rfl rfl (.enter _)⟩
  | wantBowl i =>
    obtain ⟨hfree, ⟨⟩⟩ := Option.ite_none_right_eq_some.mp hres
    exact ⟨_, rfl, .atBowls h hpc nofun rfl rfl nofun (.acquire _ _ (.inl (bowlPlaces_eq hpc)) hfree)⟩
  | testBowl i =>
    rw [simulation] at hres
    split at hres
    · rename_i hnone
      cases hres
      exact ⟨_, rfl, .atBowls h hpc nofun rfl rfl nofun (.wait _ _ (bowlPlaces_eq hpc) hnone)⟩
    · rename_i hsome
      cases hres
      exact ⟨_, rfl, .atBowls h hpc nofun rfl rfl nofun (.look _ _ (bowlPlaces_eq hpc) hsome)⟩
  | wokenBowl i =>
    obtain ⟨hfree, ⟨⟩⟩ := Option.ite_none_right_eq_some.mp hres
    exact ⟨_, rfl, .atBowls h hpc nofun rfl rfl nofun (.acquire _ _ (.inr (bowlPlaces_eq hpc)) hfree)⟩
  | search i y =>
    rw [simulation] at hres
    split at hres
    · rename_i hnext
      cases hres
      refine ⟨_, rfl, .atBowls h hpc nofun rfl rfl nofun (.next _ _ y (bowlPlaces_eq hpc) ?_ hnext.2)⟩
      exact h.length.symm ▸ hnext.1
    · rename_i hend
      rw [← h.length] at hend
      have hfound : s.bowlStates[y]? = some none := h.row.search_ends (bowlPlaces_eq hpc) hend
      rw [if_neg (not_not.mpr hfound)] at hres
      cases hres
      exact ⟨_, rfl, .atBowls h hpc nofun rfl rfl nofun (.mark _ _ y (bowlPlaces_eq hpc) hfound)⟩
  | take i y =>
    cases hres
    exact ⟨_, rfl, .atBowls h hpc nofun rfl rfl nofun (.taken _ _ y (bowlPlaces_eq hpc))⟩
  | eat i y =>
    rw [simulation, eatBegin_run h hpc] at hres
    cases hres
    refine ⟨_, rfl, .of_goto (.refl rfl) ⟨rfl, rfl, rfl, rfl⟩ (by rw [hpc]; exact nofun) ?_ ?_ (.begin h hpc)⟩
    · exact door_stay (by rw [hpc]; rfl) nofun rfl
    · exact row_stay (by rw [hpc]; rfl) rfl rfl
  | eating i y =>
    rw [simulation, eatFinish_run h hpc] at hres
    cases hres
    refine ⟨_, rfl, .of_goto (.refl rfl) ⟨rfl, rfl, rfl, rfl⟩ (by rw [hpc]; exact nofun) ?_ ?_ (.finish h hpc)⟩
    · exact door_stay (by rw [hpc]; rfl) nofun rfl
    · exact row_stay (by rw [hpc]; rfl) rfl rfl
  | wantRoundAgain i y =>
    obtain ⟨hfree, ⟨⟩⟩ := Option.ite_none_right_eq_some.mp hres
    exact ⟨_, rfl, .atRound h hpc nofun rfl rfl (.back _ hfree)⟩
  | wantBowlAgain i y =>
    obtain ⟨hfree, ⟨⟩⟩ := Option.ite_none_right_eq_some.mp hres
    exact ⟨_, rfl, .atBowls h hpc nofun rfl rfl nofun (.back _ _ y (bowlPlaces_eq hpc) hfree)⟩
  | putBack i y =>
    cases hres
    exact ⟨_, rfl, .atBowls h hpc nofun rfl rfl nofun (.add _ _ y (bowlPlaces_eq hpc))⟩
  | clear i y =>
    rw [simulation] at hres
    split at hres
    · rename_i hw
      cases hres
      have hsome : ∀ b, w = some b → (s.pc b).waitsBowl = true := by
        intro b hb
        rw [hb] at hw
        exact hw
      have hnone : w = none → ∀ b, s.bowlPlaces b ≠ .waiting := by
        intro hb
        rw [hb] at hw
        exact h.nobody_waits hw
      refine ⟨_, rfl, .goto h woken_wakeBowl ⟨rfl, rfl, rfl, rfl⟩ (by rw [hpc]; exact nofun) ⟨rfl, rfl, rfl⟩
        (by rw [hpc]; rfl) (door_stay (by rw [hpc]; rfl) nofun rfl) ?_⟩
      have hplaces : World.bowlPlaces
          { s with bowlStates := s.bowlStates.set y none, pc := wakeBowl s.pc w, lockBowl := none } =
          Slots.wake s.bowlPlaces w := wakeBowl_bowl s.pc hsome
      rw [hplaces]
      exact .clear _ _ y w (bowlPlaces_eq hpc) (fun b hb => waitsBowl_iff.mp (hsome b hb)) hnone
    · exact nomatch hres
  | leave i =>
    cases hres
    refine ⟨_, rfl, ?_⟩
    split <;> exact .atRound h hpc nofun rfl rfl (.leave _)
  | broadcast i =>
    cases hres
    refine ⟨_, rfl, .goto h woken_wakeRound ⟨rfl, rfl, rfl, rfl⟩ (by rw [hpc]; exact nofun) ⟨rfl, rfl, rfl⟩
      (by rw [hpc]; rfl) ?_ (row_stay (by rw [hpc]; rfl) (funext (wakeRound_bowl s.pc)) rfl)⟩
    rw [hpc]
    exact .go _
  | switch i | ending | ended | final =>
    cases hres
    exact ⟨_, rfl, .atRound h hpc nofun rfl rfl (.stay _ _ nofun)⟩
  | waitRound i | waitBowl i | finished => exact nomatch hres

theorem animalStep_eq (s : World) (a : Animal) (w : Option Animal) :
    animalStep s a w = simulation a.kind a w s (s.pc a) := by
  unfold animalStep cat_simulation mouse_simulation
  cases a.kind <;> rfl

theorem worldNext_animal (h : WorldInv s) (hs : worldNext s (.animal a w) = some s') :
    animalStep s a w = some (.ok s') ∧ Effect s a s' := by
  rw [worldNext, h.safe, if_neg (by decide)] at hs
  obtain ⟨res, hres, heq⟩ := Option.map_eq_some_iff.mp hs
  rw [animalStep_eq] at hres
  obtain ⟨t, rfl, heffect⟩ := simulation_effect h hres
  cases heq
  exact ⟨(animalStep_eq s a w).trans hres, heffect⟩

/-! ## The whole system -/

theorem worldInv_booted : WorldInv booted where
  safe := rfl
  unborn := fun _ _ => rfl
  idle := fun _ _ => rfl
  door := .empty ⟨rfl, fun _ => rfl⟩ fun _ => rfl
  row := .empty rfl nofun rfl fun _ => rfl
  length := rfl
  checker :=
    { length := rfl
      num := rfl
      taken := nofun
      eater := nofun
      count := fun _ => ⟨0, rfl, Tally.zero fun _ h => h.2 rfl⟩ }

/-- The animals of a new run sleep, and there are no others. -/
theorem catmouse_pc {p : Params} (hs : catmouse p s = some s') (a : Animal) :
    s'.pc a = if a.number < s'.population a.kind then .sleep 0 else .finished := by
  rw [catmouse] at hs
  split at hs
  · exact nomatch hs
  · cases hs
    obtain ⟨k, n⟩ := a
    cases k <;> rfl

/-- The numbers of animals that eat are those of the run before, and so 0. -/
theorem WorldInv.catmouse (h : WorldInv s) {p : Params} (hs : catmouse p s = some s') : WorldInv s' := by
  have hpc := catmouse_pc hs
  have hround : ∀ a, s'.rounds a = .out := by
    intro a
    rw [World.rounds, hpc a]
    split <;> rfl
  have hbowl : ∀ a, s'.bowlPlaces a = .away := by
    intro a
    rw [World.bowlPlaces, hpc a]
    split <;> rfl
  have heats : ∀ a, (s'.pc a).eats = none := by
    intro a
    rw [hpc a]
    split <;> rfl
  rw [CatMouse.catmouse] at hs
  split at hs
  · exact nomatch hs
  · rename_i hgo
    have hidle : s.running = false := by
      by_contra hrun
      exact hgo (.inl (Bool.of_not_eq_false hrun))
    have hzero : ∀ k, s.EATING k = 0 := by
      intro k
      apply h.door.count_zero
      intro a _
      rw [World.rounds, h.idle hidle a]
      rfl
    cases hs
    constructor
    · exact h.safe
    · intro a ha
      rw [hpc a, if_neg (Nat.not_lt.mpr ha)]
    · exact nofun
    · exact .empty ⟨rfl, hzero⟩ hround
    · exact .empty rfl (fun _ hmem => List.eq_of_mem_replicate hmem) (by rw [World.row, List.length_replicate]) hbowl
    · exact List.length_replicate
    · constructor
      · exact List.length_replicate
      · rfl
      · intro a y ha
        rw [heats a] at ha
        exact nomatch ha
      · intro y k hy
        exact nomatch List.eq_of_mem_replicate (List.mem_of_getElem? hy)
      · exact fun k => ⟨0, rfl, Tally.zero fun a ha => ha.2 (heats a)⟩

theorem WorldInv.collect (h : WorldInv s) (hall : s.allAnimals (fun p => p = .finished) = true) :
    WorldInv { s with running := false } :=
  { h with
    idle := by
      intro _ b
      by_cases hb : s.population b.kind ≤ b.number
      · exact h.unborn b hb
      · exact of_decide_eq_true (s.of_allAnimals hall (Nat.not_le.mp hb))
    checker := { h.checker with } }

theorem WorldInv.next (h : WorldInv s) {act : Act} (hs : worldNext s act = some s') : WorldInv s' := by
  cases act with
  | catmouse p =>
    rw [worldNext, h.safe] at hs
    exact h.catmouse hs
  | animal a w => exact h.effect (worldNext_animal h hs).2
  | collect =>
    rw [worldNext] at hs
    split at hs
    · rename_i hgo
      cases hs
      exact h.collect hgo.2.2
    · exact nomatch hs

theorem worldInv_reachable (h : worldSystem.Reachable s) : WorldInv s := by
  refine System.invariant ?_ ?_ h
  · intro s hs
    rw [show s = booted from hs]
    exact worldInv_booted
  · intro s act s' hinv hs
    exact hinv.next hs

/-- The search goes on to a free bowl and marks it. -/
theorem search_succeeds {i : Nat} (a : Animal) (d : Nat) : ∀ {s : World} {y : Nat}, WorldInv s → s.pc a = .search i y →
    s.NumBowls - y = d → ∃ n z s', s.bowlStates[z]? = some none ∧
      System.follow worldNext (List.replicate n (.animal a none)) s = some s' ∧ s'.pc a = .take i z := by
  induction d with
  | zero =>
    intro s y h hpc hd
    have hlt := (h.row.search a y (bowlPlaces_eq hpc)).1
    rw [World.row, h.length] at hlt
    omega
  | succ d ih =>
    intro s y h hpc hd
    by_cases hgo : y + 1 < s.NumBowls ∧ s.bowlStates[y]? ≠ some none
    · -- the bowl is taken, and the search goes on at the next one
      have hnext : worldNext s (.animal a none) = some (s.goto a (.search i (y + 1))) := by
        rw [worldNext, h.safe, if_neg (by decide), animalStep_eq, hpc, simulation, if_pos hgo]
        rfl
      obtain ⟨n, z, s', hfree, hrun, hend⟩ := ih (h.next hnext) (goto_self s a _) (by show s.NumBowls - _ = _; omega)
      refine ⟨n + 1, z, s', hfree, ?_, hend⟩
      rw [List.replicate_succ, System.follow, hnext]
      exact hrun
    · have hfree : s.bowlStates[y]? = some none := by
        apply h.row.search_ends (bowlPlaces_eq hpc)
        rwa [World.row, h.length]
      refine ⟨1, y, { s with bowlStates := s.bowlStates.set y (some a.kind) }.goto a (.take i y), hfree, ?_,
        goto_self _ a _⟩
      rw [List.replicate_one, System.follow, worldNext, if_neg (by rw [h.safe]; decide), animalStep_eq, hpc, simulation,
        if_neg hgo, if_neg (not_not.mpr hfree)]
      rfl

/-- **Exclusion**: in every reachable state the animals that eat are of one kind and at different
bowls, the number of available bowls is right whenever `lockBowl` is free, an animal that looks
for a free bowl finds one, and no assertion has failed and no check has panicked. -/
theorem catmouse_exclusion (h : worldSystem.Reachable s) :
    (∀ a b y z, (s.pc a).eats = some y → (s.pc b).eats = some z → a.kind = b.kind ∧ (y = z → a = b)) ∧
    (s.lockBowl = none → s.availableBowls = s.bowlStates.count none) ∧
    (∀ a i y, s.pc a = .search i y → ∃ n z s', s.bowlStates[z]? = some none ∧
      System.follow worldNext (List.replicate n (.animal a none)) s = some s' ∧ s'.pc a = .take i z) ∧
    s.panicked = none := by
  have hinv := worldInv_reachable h
  refine ⟨?_, ?_, ?_, hinv.safe⟩
  · intro a b y z ha hb
    have hin : (s.rounds b).isIn = true := by
      rw [World.rounds, (eats_bowl hb).2]
      rfl
    refine ⟨hinv.eats_alone ha hin, ?_⟩
    intro hyz
    apply hinv.eats_owner ha
    rw [World.bowlPlaces, (eats_bowl hb).1, hyz]
    rfl
  · exact hinv.row.free_eq
  · intro a i y hpc
    exact search_succeeds a _ hinv hpc rfl

/-- Two cats, one after the other, go to a bowl. -/
def twoCats : List Act :=
  .catmouse ⟨2, 2, 1, 1, none⟩ ::
    (List.replicate 9 (.animal ⟨.cat, 0⟩ none) ++ List.replicate 10 (.animal ⟨.cat, 1⟩ none))

theorem catmouse_exclusion_twoCats : ∃ s, worldSystem.Reachable s ∧ (s.pc ⟨.cat, 0⟩).eats = some 0 ∧
    (s.pc ⟨.cat, 1⟩).eats = some 1 ∧ s.panicked = none ∧
    (s.lockBowl = none → s.availableBowls = s.bowlStates.count none) := by
  obtain ⟨s, hreach, hcat0, hcat1⟩ : ∃ s, worldSystem.Reachable s ∧ (s.pc ⟨.cat, 0⟩).eats = some 0 ∧
      (s.pc ⟨.cat, 1⟩).eats = some 1 := System.exists_reachable (s := booted) (by rfl) twoCats (by decide +kernel)
  obtain ⟨-, hfree, -, hsafe⟩ := catmouse_exclusion hreach
  exact ⟨s, hreach, hcat0, hcat1, hsafe, hfree⟩

end Steps

end OS161.CatMouse
