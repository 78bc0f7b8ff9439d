import InternetWavPlayer.Effects

/-!
# Entering and leaving pages

The handler calls of a run form visits: a page is entered, called any number of
times and left, and the page entered next is another one.  The discipline which
the pages rely on is read off that form.
-/

namespace InternetWavPlayer.PageSwitch

open InternetWavPlayer.Run
open InternetWavPlayer.LcdEvent
open InternetWavPlayer.Webclient
open InternetWavPlayer.Pages
open InternetWavPlayer.LcdThread
open InternetWavPlayer.Dispatch
open InternetWavPlayer.Scene
open InternetWavPlayer.Effects

/-! ## Handler calls -/

/-- One call through `lcd_handle`, with what the menu held. -/
structure Call where
  page : Nat
  content : ContentType
  event : IotbLcdEvent
deriving DecidableEq, Repr

def callOf : Observation → Option Call
  | .handler menu content event => some ⟨menu, content, event⟩
  | _ => none

/-- The handler calls of a trace, oldest first. -/
def handlerCalls (trace : List Observation) : List Call :=
  trace.reverse.filterMap callOf

theorem handlerCalls_handler
    (page : Nat) (content : ContentType) (event : IotbLcdEvent)
    (trace : List Observation) :
    handlerCalls (.handler page content event :: trace) =
      handlerCalls trace ++ [⟨page, content, event⟩] := by
  simp [handlerCalls, callOf]

/-- What a handler logs itself is not a call. -/
theorem handlerCalls_of_logs
    {before after : Statics} (logs : Logs Inner before after) :
    handlerCalls after.trace = handlerCalls before.trace := by
  obtain ⟨entries, equal, inner⟩ := logs
  have silent : entries.reverse.filterMap callOf = [] := by
    rw [List.filterMap_eq_nil_iff]
    intro entry member
    have kind := inner entry (List.mem_reverse.mp member)
    cases entry with
    | handler page content event => exact False.elim kind
    | _ => rfl
  rw [handlerCalls, equal, List.reverse_append, List.filterMap_append,
    silent, List.append_nil, handlerCalls]

/-! ## Visits -/

/--
Sequences of calls made of visits.  The page is the one entered last; the flag
tells that it has not been left.
-/
inductive Visits : Nat → Bool → List Call → Prop where
  | boot : Visits 1 true [⟨1, .staticContent, .none⟩]
  | call {page : Nat} {calls : List Call} {event : IotbLcdEvent}
      (visits : Visits page true calls) (content : ContentType)
      (notEnter : event ≠ .enter) (notExit : event ≠ .exit) :
      Visits page true (calls ++ [⟨page, content, event⟩])
  | exit {page : Nat} {calls : List Call}
      (visits : Visits page true calls) :
      Visits page false (calls ++ [⟨page, .contentNone, .exit⟩])
  | enter {page target : Nat} {calls : List Call}
      (visits : Visits page false calls)
      (range : target = 1 ∨ target = 2 ∨ target = 3)
      (other : target ≠ page) (music : target = 2 → page = 1) :
      Visits target true (calls ++ [⟨target, .staticContent, .enter⟩])

/-- The page entered last; page 1 counts as entered at start-up. -/
def enteredPage (calls : List Call) : Nat :=
  calls.foldl
    (fun page call => if call.event = .enter then call.page else page) 1

/--
The `ENTER` and `EXIT` calls of a page, in order.  Page 1 counts as entered at
start-up.
-/
def turns (page : Nat) (calls : List Call) : List IotbLcdEvent :=
  (if page = 1 then [.enter] else []) ++
    (calls.filter fun call =>
      call.page = page ∧ (call.event = .enter ∨ call.event = .exit)).map
      Call.event

/-- The discipline of handler calls. -/
structure PageDiscipline (calls : List Call) : Prop where
  /-- Entries and exits of a page alternate, beginning with an entry. -/
  alternate : ∀ page index turn, (turns page calls)[index]? = some turn →
    turn = if index % 2 = 0 then .enter else .exit
  /-- A call goes to the page entered last. -/
  entered : ∀ index call, calls[index]? = some call →
    call.page = enteredPage (calls.take (index + 1))
  /-- A page that was left is entered again before it is called. -/
  silent : ∀ (first second : Nat) (left call : Call), first < second →
    calls[first]? = some left → left.event = .exit →
    calls[second]? = some call → call.page = left.page →
    ∃ (between : Nat) (enter : Call),
      first < between ∧ between ≤ second ∧
      calls[between]? = some enter ∧ enter.page = left.page ∧
      enter.event = .enter
  /-- An entry follows the exit of another page, into page 2 that of page 1. -/
  follows : ∀ (index : Nat) (enter : Call), calls[index]? = some enter →
    enter.event = .enter →
    ∃ (before : Nat) (exit : Call),
      index = before + 1 ∧ calls[before]? = some exit ∧
      exit.event = .exit ∧ exit.page ≠ enter.page ∧
      (enter.page = 2 → exit.page = 1)
  /-- Page 2 is left to page 1 or page 3. -/
  musicLeft : ∀ (index : Nat) (exit : Call), calls[index]? = some exit →
    exit.event = .exit → exit.page = 2 →
    ∃ enter : Call, calls[index + 1]? = some enter ∧
      enter.event = .enter ∧ (enter.page = 1 ∨ enter.page = 3)

/-! ## Visits keep the discipline -/

theorem getElem?_snoc_eq_some
    {calls : List Call} {last call : Call} {index : Nat}
    (found : (calls ++ [last])[index]? = some call) :
    (index < calls.length ∧ calls[index]? = some call) ∨
      (index = calls.length ∧ call = last) := by
  rw [List.getElem?_append] at found
  split at found
  · rename_i inside
    exact Or.inl ⟨inside, found⟩
  · rw [List.getElem?_singleton] at found
    split at found
    · exact Or.inr ⟨by omega, by simpa using found.symm⟩
    · cases found

theorem getElem?_snoc_of_some
    {calls : List Call} {call : Call} {index : Nat}
    (found : calls[index]? = some call) (last : Call) :
    (calls ++ [last])[index]? = some call := by
  obtain ⟨inside, -⟩ := List.getElem?_eq_some_iff.mp found
  rw [List.getElem?_append_left inside, found]

theorem getElem?_snoc_last (calls : List Call) (last : Call) :
    (calls ++ [last])[calls.length]? = some last := by
  simp

theorem enteredPage_snoc (calls : List Call) (last : Call) :
    enteredPage (calls ++ [last]) =
      if last.event = .enter then last.page else enteredPage calls := by
  simp [enteredPage]

theorem Visits.enteredPage_eq
    {page : Nat} {inside : Bool} {calls : List Call}
    (visits : Visits page inside calls) :
    enteredPage calls = page := by
  induction visits with
  | boot => rfl
  | call visits content notEnter notExit induction =>
      rw [enteredPage_snoc, if_neg notEnter, induction]
  | exit visits induction =>
      rw [enteredPage_snoc, if_neg (by simp), induction]
  | enter visits range other music induction =>
      rw [enteredPage_snoc, if_pos rfl]

theorem turns_snoc (page : Nat) (calls : List Call) (last : Call) :
    turns page (calls ++ [last]) =
      turns page calls ++
        if last.page = page ∧
            (last.event = .enter ∨ last.event = .exit) then
          [last.event]
        else [] := by
  rw [turns, turns, List.filter_append, List.map_append,
    ← List.append_assoc]
  congr 1
  by_cases kept : last.page = page ∧
      (last.event = .enter ∨ last.event = .exit)
  · rw [if_pos kept, List.filter_singleton]
    simp [kept]
  · rw [if_neg kept, List.filter_singleton, decide_eq_false kept]
    rfl

theorem alternate_append
    {list : List IotbLcdEvent} {turn : IotbLcdEvent}
    (alternate : ∀ index event, list[index]? = some event →
      event = if index % 2 = 0 then .enter else .exit)
    (next : turn = if list.length % 2 = 0 then .enter else .exit) :
    ∀ index event, (list ++ [turn])[index]? = some event →
      event = if index % 2 = 0 then .enter else .exit := by
  intro index event found
  rw [List.getElem?_append] at found
  split at found
  · exact alternate index event found
  · rw [List.getElem?_singleton] at found
    split at found
    · have last : index = list.length := by omega
      rw [last, ← next]
      simpa using found.symm
    · cases found

/-- Entries and exits alternate; an odd number of them means being inside. -/
theorem Visits.turns_spec
    {page : Nat} {inside : Bool} {calls : List Call}
    (visits : Visits page inside calls) (which : Nat) :
    (∀ index turn, (turns which calls)[index]? = some turn →
        turn = if index % 2 = 0 then .enter else .exit) ∧
      (turns which calls).length % 2 =
        if which = page ∧ inside = true then 1 else 0 := by
  induction visits with
  | boot =>
      by_cases one : which = 1
      · subst which
        refine ⟨?_, rfl⟩
        intro index turn found
        simp only [turns] at found
        rcases index with _ | index
        · simpa using found.symm
        · simp at found
      · have empty :
            turns which [⟨1, .staticContent, .none⟩] = [] := by
          simp [turns, one]
        rw [empty]
        simp [one]
  | call visits content notEnter notExit induction =>
      rw [turns_snoc]
      simpa [notEnter, notExit] using induction
  | @exit page calls visits induction =>
      obtain ⟨alternate, parity⟩ := induction
      rw [turns_snoc]
      by_cases here : which = page
      · subst which
        simp only [and_self, ↓reduceIte] at parity
        refine ⟨?_, ?_⟩
        · simp only [reduceCtorEq, or_true, and_self, ↓reduceIte]
          exact alternate_append alternate (by simp [parity])
        · simp only [reduceCtorEq, or_true, and_self, ↓reduceIte,
            List.length_append, List.length_singleton, and_false]
          omega
      · have there : ¬ page = which := fun equal => here equal.symm
        simpa [there, here] using And.intro alternate parity
  | @enter page target calls visits range other music induction =>
      obtain ⟨alternate, parity⟩ := induction
      simp only [Bool.false_eq_true, and_false, ↓reduceIte] at parity
      rw [turns_snoc]
      by_cases here : which = target
      · subst which
        refine ⟨?_, ?_⟩
        · simp only [true_or, and_self, ↓reduceIte]
          exact alternate_append alternate (by simp [parity])
        · simp only [true_or, and_self, ↓reduceIte,
            List.length_append, List.length_singleton]
          omega
      · have there : ¬ target = which := fun equal => here equal.symm
        simpa [there, here] using And.intro alternate parity

theorem Visits.entered
    {page : Nat} {inside : Bool} {calls : List Call}
    (visits : Visits page inside calls)
    {index : Nat} {call : Call} (found : calls[index]? = some call) :
    call.page = enteredPage (calls.take (index + 1)) := by
  have snoc : ∀ {page : Nat} {inside : Bool} {older : List Call}
      {last : Call}, Visits page inside (older ++ [last]) →
      last.page = page →
      (∀ {index : Nat} {call : Call}, older[index]? = some call →
        call.page = enteredPage (older.take (index + 1))) →
      ∀ {index : Nat} {call : Call},
        (older ++ [last])[index]? = some call →
        call.page = enteredPage ((older ++ [last]).take (index + 1)) := by
    intro page inside older last extended lastPage induction index call
      found
    rcases getElem?_snoc_eq_some found with
      ⟨older, earlier⟩ | ⟨rfl, rfl⟩
    · rw [List.take_append_of_le_length (by omega)]
      exact induction earlier
    · rw [List.take_of_length_le (by simp), extended.enteredPage_eq,
        lastPage]
  induction visits generalizing index call with
  | boot =>
      rcases index with _ | index
      · simp only [List.getElem?_cons_zero, Option.some.injEq] at found
        rw [← found]
        rfl
      · simp at found
  | call visits content notEnter notExit induction =>
      exact snoc (visits.call content notEnter notExit) rfl induction found
  | exit visits induction =>
      exact snoc visits.exit rfl induction found
  | enter visits range other music induction =>
      exact snoc (visits.enter range other music) rfl induction found

/-- The page entered last was entered after every exit from it. -/
theorem Visits.reentered
    {page : Nat} {calls : List Call}
    (visits : Visits page true calls)
    {first : Nat} {left : Call} (found : calls[first]? = some left)
    (exit : left.event = .exit) (here : left.page = page) :
    ∃ between enter, first < between ∧
      calls[between]? = some enter ∧ enter.page = page ∧
      enter.event = .enter := by
  generalize inside : true = flag at visits
  induction visits with
  | boot =>
      rcases first with _ | first
      · simp only [List.getElem?_cons_zero, Option.some.injEq] at found
        rw [← found] at exit
        cases exit
      · simp at found
  | call visits content notEnter notExit induction =>
      rcases getElem?_snoc_eq_some found with ⟨-, earlier⟩ | ⟨-, rfl⟩
      · obtain ⟨between, enter, later, entered, rest⟩ :=
          induction earlier here rfl
        exact ⟨between, enter, later,
          getElem?_snoc_of_some entered _, rest⟩
      · exact absurd exit notExit
  | exit visits induction => cases inside
  | @enter page target calls visits range other music induction =>
      rcases getElem?_snoc_eq_some found with ⟨earlier, -⟩ | ⟨-, rfl⟩
      · exact ⟨calls.length, _, earlier, getElem?_snoc_last calls _,
          rfl, rfl⟩
      · cases exit

theorem Visits.silent
    {page : Nat} {inside : Bool} {calls : List Call}
    (visits : Visits page inside calls)
    {first second : Nat} {left call : Call} (order : first < second)
    (leaves : calls[first]? = some left) (exit : left.event = .exit)
    (found : calls[second]? = some call) (same : call.page = left.page) :
    ∃ between enter, first < between ∧ between ≤ second ∧
      calls[between]? = some enter ∧ enter.page = left.page ∧
      enter.event = .enter := by
  -- a call after the exit finds the page entered again before it
  have older : ∀ {older : List Call} {last : Call} {first : Nat}
      {left : Call},
      (older ++ [last])[first]? = some left → first < older.length →
      older[first]? = some left := by
    intro older last first left leaves inside
    rwa [List.getElem?_append_left inside] at leaves
  have extend : ∀ {older : List Call} {last : Call} {second : Nat},
      (∃ between enter, first < between ∧ between ≤ second ∧
        older[between]? = some enter ∧ enter.page = left.page ∧
        enter.event = .enter) →
      ∃ between enter, first < between ∧ between ≤ second ∧
        (older ++ [last])[between]? = some enter ∧
        enter.page = left.page ∧ enter.event = .enter := by
    rintro older last second ⟨between, enter, after, before, entered, rest⟩
    exact ⟨between, enter, after, before,
      getElem?_snoc_of_some entered last, rest⟩
  have called : ∀ {page : Nat} {older : List Call} {last : Call},
      Visits page true older →
      older[first]? = some left → left.page = page →
      ∃ between enter, first < between ∧ between ≤ older.length ∧
        (older ++ [last])[between]? = some enter ∧
        enter.page = left.page ∧ enter.event = .enter := by
    intro page older last visits leaves here
    obtain ⟨between, enter, after, entered, entryPage, entry⟩ :=
      visits.reentered leaves exit here
    obtain ⟨inside, -⟩ := List.getElem?_eq_some_iff.mp entered
    exact ⟨between, enter, after, inside.le,
      getElem?_snoc_of_some entered last, entryPage.trans here.symm,
      entry⟩
  induction visits generalizing second call with
  | boot =>
      have bound := (List.getElem?_eq_some_iff.mp found).1
      simp only [List.length_singleton] at bound
      omega
  | call visits content notEnter notExit induction =>
      rcases getElem?_snoc_eq_some found with
        ⟨inside, earlier⟩ | ⟨rfl, rfl⟩
      · exact extend (induction order
          (older leaves (order.trans inside)) earlier same)
      · exact called visits (older leaves order) same.symm
  | exit visits induction =>
      rcases getElem?_snoc_eq_some found with
        ⟨inside, earlier⟩ | ⟨rfl, rfl⟩
      · exact extend (induction order
          (older leaves (order.trans inside)) earlier same)
      · exact called visits (older leaves order) same.symm
  | enter visits range other music induction =>
      rcases getElem?_snoc_eq_some found with
        ⟨inside, earlier⟩ | ⟨rfl, rfl⟩
      · exact extend (induction order
          (older leaves (order.trans inside)) earlier same)
      · exact ⟨_, _, order, le_rfl, found, same, rfl⟩

/-- A sequence that ends outside a page ends with that page's exit. -/
theorem Visits.last_exit
    {page : Nat} {calls : List Call}
    (visits : Visits page false calls) :
    ∃ before, calls.length = before + 1 ∧
      calls[before]? = some ⟨page, .contentNone, .exit⟩ := by
  cases visits with
  | exit visits =>
      exact ⟨_, by simp, getElem?_snoc_last _ _⟩

theorem Visits.follows
    {page : Nat} {inside : Bool} {calls : List Call}
    (visits : Visits page inside calls)
    {index : Nat} {enter : Call} (found : calls[index]? = some enter)
    (entry : enter.event = .enter) :
    ∃ before exit, index = before + 1 ∧ calls[before]? = some exit ∧
      exit.event = .exit ∧ exit.page ≠ enter.page ∧
      (enter.page = 2 → exit.page = 1) := by
  have extend : ∀ {older : List Call} {last : Call},
      (∃ before exit, index = before + 1 ∧ older[before]? = some exit ∧
        exit.event = .exit ∧ exit.page ≠ enter.page ∧
        (enter.page = 2 → exit.page = 1)) →
      ∃ before exit, index = before + 1 ∧
        (older ++ [last])[before]? = some exit ∧
        exit.event = .exit ∧ exit.page ≠ enter.page ∧
        (enter.page = 2 → exit.page = 1) := by
    rintro older last ⟨before, exit, position, left, rest⟩
    exact ⟨before, exit, position, getElem?_snoc_of_some left last, rest⟩
  induction visits with
  | boot =>
      rcases index with _ | index
      · simp only [List.getElem?_cons_zero, Option.some.injEq] at found
        rw [← found] at entry
        cases entry
      · simp at found
  | call visits content notEnter notExit induction =>
      rcases getElem?_snoc_eq_some found with ⟨-, earlier⟩ | ⟨-, rfl⟩
      · exact extend (induction earlier)
      · exact absurd entry notEnter
  | exit visits induction =>
      rcases getElem?_snoc_eq_some found with ⟨-, earlier⟩ | ⟨-, rfl⟩
      · exact extend (induction earlier)
      · cases entry
  | enter visits range other music induction =>
      rcases getElem?_snoc_eq_some found with ⟨-, earlier⟩ | ⟨rfl, rfl⟩
      · exact extend (induction earlier)
      · obtain ⟨before, position, left⟩ := visits.last_exit
        exact ⟨before, _, position, getElem?_snoc_of_some left _, rfl,
          other.symm, music⟩

/-- Every exit is followed by the entry of another page, or is the last call. -/
theorem Visits.left_to
    {page : Nat} {inside : Bool} {calls : List Call}
    (visits : Visits page inside calls)
    {index : Nat} {exit : Call} (found : calls[index]? = some exit)
    (leaves : exit.event = .exit) :
    (inside = false ∧ index + 1 = calls.length) ∨
      ∃ enter, calls[index + 1]? = some enter ∧ enter.event = .enter ∧
        enter.page ≠ exit.page ∧
        (enter.page = 1 ∨ enter.page = 2 ∨ enter.page = 3) := by
  have extend : ∀ {older : List Call} {last : Call},
      (∃ enter, older[index + 1]? = some enter ∧ enter.event = .enter ∧
        enter.page ≠ exit.page ∧
        (enter.page = 1 ∨ enter.page = 2 ∨ enter.page = 3)) →
      ∃ enter, (older ++ [last])[index + 1]? = some enter ∧
        enter.event = .enter ∧ enter.page ≠ exit.page ∧
        (enter.page = 1 ∨ enter.page = 2 ∨ enter.page = 3) := by
    rintro older last ⟨enter, next, rest⟩
    exact ⟨enter, getElem?_snoc_of_some next last, rest⟩
  induction visits with
  | boot =>
      rcases index with _ | index
      · simp only [List.getElem?_cons_zero, Option.some.injEq] at found
        rw [← found] at leaves
        cases leaves
      · simp at found
  | call visits content notEnter notExit induction =>
      rcases getElem?_snoc_eq_some found with ⟨-, earlier⟩ | ⟨-, rfl⟩
      · rcases induction earlier with ⟨outside, -⟩ | next
        · cases outside
        · exact Or.inr (extend next)
      · exact absurd leaves notExit
  | exit visits induction =>
      rcases getElem?_snoc_eq_some found with ⟨-, earlier⟩ | ⟨rfl, -⟩
      · rcases induction earlier with ⟨outside, -⟩ | next
        · cases outside
        · exact Or.inr (extend next)
      · exact Or.inl ⟨rfl, by simp⟩
  | @enter page target calls visits range other music induction =>
      rcases getElem?_snoc_eq_some found with ⟨-, earlier⟩ | ⟨rfl, rfl⟩
      · rcases induction earlier with ⟨-, last⟩ | next
        · obtain ⟨before, length, left⟩ := visits.last_exit
          obtain rfl : index = before := by omega
          obtain rfl : exit = ⟨page, .contentNone, .exit⟩ := by
            rw [earlier] at left
            exact Option.some.inj left
          refine Or.inr ⟨⟨target, .staticContent, .enter⟩, ?_, rfl,
            other, range⟩
          rw [length.symm]
          exact getElem?_snoc_last calls _
        · exact Or.inr (extend next)
      · cases leaves

theorem Visits.discipline
    {page : Nat} {calls : List Call} (visits : Visits page true calls) :
    PageDiscipline calls where
  alternate which := (visits.turns_spec which).1
  entered _ _ found := visits.entered found
  silent _ _ _ _ order leaves exit found same :=
    visits.silent order leaves exit found same
  follows _ _ found entry := visits.follows found entry
  musicLeft index exit found leaves music := by
    rcases visits.left_to found leaves with ⟨outside, -⟩ | next
    · cases outside
    · obtain ⟨enter, after, entry, other, range⟩ := next
      rw [music] at other
      exact ⟨enter, after, entry, by omega⟩

theorem discipline_nil : PageDiscipline [] where
  alternate page index turn found := by
    rw [turns] at found
    split at found
    · rcases index with _ | index
      · simpa using found.symm
      · simp at found
    · simp at found
  entered index call found := by simp at found
  silent first second left call order leaves := by simp at leaves
  follows index enter found := by simp at found
  musicLeft index exit found := by simp at found

/-! ## Runs of the thread -/

/-- The calls made so far are visits that end inside the active page. -/
structure Visited (scene : View) : Prop where
  coherent : Coherent scene
  fresh : scene.pc = .start → handlerCalls scene.statics.trace = []
  visits : scene.pc ≠ .start →
    Visits scene.page true (handlerCalls scene.statics.trace)

theorem visited_initial (card : Card) : Visited (.initial card) where
  coherent := coherent_initial card
  fresh _ := rfl
  visits started := absurd rfl started

theorem visited_preserved : Preserved viewStep Visited := by
  intro input scene next visited stepped
  have coherent := visited.coherent
  refine ⟨coherent_preserved input scene next coherent stepped, ?_, ?_⟩
  · cases move_of_step stepped <;> simp
  · intro _
    cases move_of_step stepped with
    | boot pc shows =>
        rw [handlerCalls_of_logs (showStatics_logs shows)]
        simp only [Statics.log]
        rw [handlerCalls_handler, visited.fresh pc]
        exact .boot
    | switch pc branch shows =>
        obtain ⟨range, other, music⟩ :=
          served_switch coherent.range branch
        have visits := visited.visits (by simp [pc])
        rw [handlerCalls_of_logs (showStatics_logs shows)]
        simp only [Statics.log]
        rw [handlerCalls_handler, View.left,
          handlerCalls_of_logs
            ((exitStatics_logs _ _ _).mono fun _ => Plain.inner)]
        simp only [Statics.log]
        rw [handlerCalls_handler]
        exact visits.exit.enter range other music
    | due pc due serves =>
        have kept := coherent.dynamicEvent due.1
        have visits := visited.visits (by simp [pc])
        rw [handlerCalls_of_logs
          ((dueStatics_logs serves).mono fun _ => Plain.inner)]
        simp only [Statics.log]
        rw [handlerCalls_handler]
        exact visits.call .dynamicContent kept.1 kept.2
    | poll pc got => exact visited.visits (by simp [pc])
    | timeout pc empty => exact visited.visits (by simp [pc])
    | leave pc branch => exact visited.visits (by simp [pc])
    | ignore pc branch => exact visited.visits (by simp [pc])
    | wait pc notDue => exact visited.visits (by simp [pc])
    | tick pc =>
        have visits := visited.visits (by simp [pc])
        rw [View.tick]
        split <;> exact visits

/--
At every top of the loop the two page indices agree and name a page with a
handler, and the other pages are at rest; the handler calls of the run keep
the discipline of pages.
-/
theorem pages_disciplined
    (card : Card) (inputs : List Input) (lcd : Lcd)
    (ran : run step inputs (.initial card) = .ok lcd) :
    (lcd.pc = .top →
      lcd.menuIndex = lcd.iotbLcdMenuIndex ∧
      1 ≤ lcd.menuIndex ∧ lcd.menuIndex ≤ iotbLcdMenuMax ∧
      (lcd.lcdInstance lcd.menuIndex).lcdHandle ≠ none ∧
      ∀ index, index ≠ lcd.menuIndex →
        (lcd.lcdInstance index).contentType = .contentNone) ∧
    PageDiscipline (handlerCalls lcd.statics.trace) := by
  constructor
  · intro top
    have thread := run_invariant threadInvariant_preserved
      (threadInvariant_initial card) ran
    have menus := thread.menus (by simp [top])
    refine ⟨menus.index_eq, menus.index_range.1, menus.index_range.2, ?_,
      menus.others⟩
    have known := menus.active_handle
    rw [Lcd.active] at known
    simp [known]
  · have visited := run_invariant visited_preserved
      (visited_initial card) (run_view ran)
    by_cases start : (view lcd).pc = .start
    · have fresh : handlerCalls lcd.statics.trace = [] :=
        visited.fresh start
      rw [fresh]
      exact discipline_nil
    · exact (visited.visits start).discipline

/-- Start-up, one double click of KEY0 and the switch to page 3. -/
def nextInputs : List Input :=
  [⟨⟨0#32, .empty⟩, offline⟩,
    ⟨PostedSet.single ⟨.key0, .keyDoubleClick⟩ .next
      key0DoubleClick_processed, offline⟩,
    ⟨⟨0#32, .empty⟩, offline⟩]

theorem pages_disciplined_next :
    ∃ lcd, run step nextInputs (.initial fun _ => none) = .ok lcd ∧
      PageDiscipline (handlerCalls lcd.statics.trace) := by
  obtain ⟨lcd, ran⟩ : ∃ lcd,
      run step nextInputs (.initial fun _ => none) = .ok lcd :=
    ⟨_, rfl⟩
  exact ⟨lcd, ran, (pages_disciplined _ _ lcd ran).2⟩

end InternetWavPlayer.PageSwitch
