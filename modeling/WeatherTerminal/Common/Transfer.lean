import Mathlib.Data.List.Chain
import Mathlib.Data.List.Induction
import WeatherTerminal.Common.Block
/-!
# A buffer rewritten while it may be sent

A program rewrites a buffer, store by store, and then has a device send
it: it waits until the device is ready and starts the transfer, which reads
the buffer beat by beat on its own. Between starting one transfer and
rewriting the buffer for the next nothing makes the program wait. A
schedule says which side moves next, so a fact about every schedule is a
fact about every interleaving.

A refill into a buffer that is not being sent, or that already holds what
the refill writes, disturbs nothing (`Feed.run_calm`); every other one can
(`Feed.exists_not_calm`).
-/

namespace WeatherTerminal

namespace Block

variable {n : ℕ} {b : Block n}

/-- Single stores, in order, each of a byte at its place. -/
def writes (b : Block n) : List (ℕ × UInt8) → Block n
  | [] => b
  | p :: ws => (b.store p.1 p.2).writes ws

/-- **Stores that agree with a content leave it** wherever one of them
falls or it was there before. -/
theorem writes_getElem? {f : List UInt8} {ws : List (ℕ × UInt8)} {i : ℕ} (hlen : f.length = n)
    (hf : ∀ p ∈ ws, f[p.1]? = some p.2)
    (h : (∃ v, (i, v) ∈ ws) ∨ b.bytes[i]? = f[i]?) : (b.writes ws).bytes[i]? = f[i]? := by
  induction ws generalizing b with
  | nil => exact h.elim (fun ⟨_, hv⟩ => absurd hv List.not_mem_nil) id
  | cons p ws ih =>
      have hp := hf p List.mem_cons_self
      refine ih (fun q hq => hf q (List.mem_cons_of_mem p hq)) ?_
      rw [store_bytes]
      by_cases hi : p.1 = i
      · right
        have hlt : p.1 < f.length := by
          by_contra hge
          rw [List.getElem?_eq_none (by omega)] at hp
          cases hp
        rw [← hi, List.getElem?_set_self (by rw [b.length_eq, ← hlen]; exact hlt), hp]
      · rw [List.getElem?_set_ne hi]
        refine h.imp_left ?_
        rintro ⟨v, hv⟩
        rcases List.mem_cons.mp hv with rfl | hv
        · exact absurd rfl hi
        · exact ⟨v, hv⟩

/-- Stores that agree with a content, and are made at each of its places,
leave exactly that. -/
theorem writes_eq {f : List UInt8} {ws : List (ℕ × UInt8)} (hlen : f.length = n)
    (hf : ∀ p ∈ ws, f[p.1]? = some p.2) (hall : ∀ i < n, ∃ v, (i, v) ∈ ws) :
    (b.writes ws).bytes = f := by
  refine List.ext_getElem? fun i => ?_
  by_cases hi : i < n
  · exact writes_getElem? hlen hf (Or.inl (hall i hi))
  · rw [List.getElem?_eq_none (by rw [Block.length_eq]; omega),
      List.getElem?_eq_none (by omega)]

/-- **Stores from the first byte to the last leave what they store.** -/
theorem writes_range {ws : List (ℕ × UInt8)} (h : ws.map Prod.fst = List.range n) :
    (b.writes ws).bytes = ws.map Prod.snd := by
  have hlen : ws.length = n := by
    rw [← List.length_map Prod.fst, h, List.length_range]
  have hplace : ∀ (i : ℕ) (hi : i < ws.length), ws[i].1 = i := by
    intro i hi
    have hfst : (ws.map Prod.fst)[i]? = some ws[i].1 := by
      rw [List.getElem?_map, List.getElem?_eq_getElem hi]
      rfl
    rw [h, List.getElem?_range (by omega)] at hfst
    exact (Option.some.inj hfst).symm
  refine writes_eq ((List.length_map _).trans hlen) (fun p hp => ?_) fun i hi => ?_
  · obtain ⟨i, hi, rfl⟩ := List.mem_iff_getElem.mp hp
    rw [hplace i hi, List.getElem?_map, List.getElem?_eq_getElem hi]
    rfl
  · have hi : i < ws.length := by omega
    have hpair : ws[i] = (i, ws[i].2) := Prod.ext (hplace i hi) rfl
    exact ⟨ws[i].2, hpair ▸ List.getElem_mem hi⟩

/-- A store of the byte that is there changes nothing. -/
theorem store_same {i : ℕ} {v : UInt8} (h : b.bytes[i]? = some v) :
    (b.store i v).bytes = b.bytes := by
  rw [store_bytes]
  refine List.ext_getElem? fun j => ?_
  rw [List.getElem?_set]
  by_cases hij : i = j
  · subst hij
    have hlt : i < b.bytes.length := (List.getElem?_eq_some_iff.mp h).1
    rw [if_pos rfl, if_pos hlt, h]
  · rw [if_neg hij]

end Block

/-- What a program fills a buffer of `n` bytes with before each transfer of
it: for each request the stores it makes, in order, and the content they
leave whatever was there. -/
structure Feed (n : ℕ) (ρ : Type) where
  /-- The bytes the device reads at a time. -/
  beat : ℕ
  stores : ρ → List (ℕ × UInt8)
  frame : ρ → List UInt8
  length_frame : ∀ r, (frame r).length = n
  agrees : ∀ r, ∀ p ∈ stores r, (frame r)[p.1]? = some p.2
  covers : ∀ r, ∀ i < n, ∃ v, (i, v) ∈ stores r

/-- Program, buffer and device, with what has been sent and what is still to
be. -/
structure Machine (n : ℕ) (ρ : Type) where
  buffer : Block n
  /-- What the transfer in flight has read; `none` where the device is ready. -/
  flight : Option (List UInt8)
  /-- The transfers that are complete. -/
  sent : List (List UInt8)
  /-- The stores left of the refill under way. -/
  writing : Option (List (ℕ × UInt8))
  todo : List ρ

/-- Whose move it is, and which: the program has three, and the device two. -/
inductive Act
  /-- The program begins the next refill. -/
  | enter
  /-- The program makes a store of it. -/
  | store
  /-- The program starts the transfer, or finds the device not ready. -/
  | start
  /-- The device reads a beat. -/
  | read
  /-- The device is done. -/
  | finish
deriving DecidableEq, Repr

namespace Feed

variable {n : ℕ} {ρ : Type} (F : Feed n ρ)

/-- The program begins the next refill, where it is not at one. -/
def enter (m : Machine n ρ) : Machine n ρ :=
  match m.writing, m.todo with
  | none, r :: todo => { m with writing := some (F.stores r), todo := todo }
  | _, _ => m

/-- The program makes its next store, where one is left. -/
def store (m : Machine n ρ) : Machine n ρ :=
  match m.writing with
  | some (p :: ws) => { m with buffer := m.buffer.store p.1 p.2, writing := some ws }
  | _ => m

/-- The program starts the transfer, where it is done and the device is ready.
-/
def start (m : Machine n ρ) : Machine n ρ :=
  match m.writing, m.flight with
  | some [], none => { m with writing := none, flight := some [] }
  | _, _ => m

/-- The device reads a beat of the buffer, where it is at a transfer. -/
def read (m : Machine n ρ) : Machine n ρ :=
  match m.flight with
  | some seen =>
      if seen.length < n then
        { m with flight := some (seen ++ (m.buffer.bytes.drop seen.length).take F.beat) }
      else m
  | none => m

/-- The device is done, where it has read all of the buffer. -/
def finish (m : Machine n ρ) : Machine n ρ :=
  match m.flight with
  | some seen =>
      if n ≤ seen.length then { m with flight := none, sent := m.sent ++ [seen] } else m
  | none => m

/-- One move; one that is not open changes nothing. -/
def step (m : Machine n ρ) : Act → Machine n ρ
  | .enter => F.enter m
  | .store => store m
  | .start => start m
  | .read => F.read m
  | .finish => finish m

/-- A schedule of moves, one after the other. -/
def run (m : Machine n ρ) (acts : List Act) : Machine n ρ := acts.foldl F.step m

/-- Nothing under way: the program is at no refill, and the device is ready.
-/
def idle (buffer : Block n) (todo : List ρ) : Machine n ρ := ⟨buffer, none, [], none, todo⟩

/-- No byte is about to get a new value while a transfer is in flight. -/
def Calm (m : Machine n ρ) : Prop :=
  m.flight ≠ none → ∀ p ws, m.writing = some (p :: ws) → m.buffer.bytes[p.1]? = some p.2

/-- The refill the program would begin next finds the device ready, or the
buffer as the refill would leave it. -/
def EnterOk (m : Machine n ρ) : Prop :=
  ∀ r todo, m.writing = none → m.todo = r :: todo → m.flight = none ∨ m.buffer.bytes = F.frame r

/-- A schedule that begins refills only there, from this state on. -/
def Spaced (m : Machine n ρ) (acts : List Act) : Prop :=
  ∀ before after, acts = before ++ .enter :: after → F.EnterOk (F.run m before)

/-- A schedule in two parts is the second behind the first. -/
theorem run_append (m : Machine n ρ) (as bs : List Act) :
    F.run m (as ++ bs) = F.run (F.run m as) bs :=
  List.foldl_append

theorem Spaced.left {m : Machine n ρ} {as bs : List Act} (h : F.Spaced m (as ++ bs)) :
    F.Spaced m as := by
  rintro before after rfl
  exact h before (after ++ bs) (by rw [List.append_assoc, List.cons_append])

theorem Spaced.append {m : Machine n ρ} {as bs : List Act} (ha : F.Spaced m as)
    (hb : F.Spaced (F.run m as) bs) : F.Spaced m (as ++ bs) := by
  intro before after h
  rcases List.append_eq_append_iff.mp h with ⟨cs, rfl, hcs⟩ | ⟨cs, rfl, hcs⟩
  · rw [run_append]
    exact hb cs after hcs
  · rcases cs with - | ⟨c, cs⟩
    · rw [List.append_nil] at hb
      exact hb [] after hcs.symm
    · obtain ⟨rfl, rfl⟩ := List.cons.inj hcs
      exact ha before cs rfl

/-- A schedule without a further refill is spaced. -/
theorem spaced_of_notMem {m : Machine n ρ} {acts : List Act} (h : .enter ∉ acts) :
    F.Spaced m acts := by
  rintro before after rfl
  exact absurd (List.mem_append_right before List.mem_cons_self) h

/-- So is one that begins a refill at such a place and does nothing else. -/
theorem spaced_enter {m : Machine n ρ} (h : F.EnterOk m) : F.Spaced m [.enter] := by
  intro before after hb
  rcases before with - | ⟨c, cs⟩
  · exact h
  · have hlen := congrArg List.length hb
    simp only [List.length_append, List.length_cons, List.length_nil] at hlen
    omega

/-! ## What a spaced schedule keeps -/

section

variable {F} {m : Machine n ρ} {rs done : List ρ} {cur : Option ρ} {r : ρ}

/-- The stores left of a refill leave its content, and none of them changes
a byte that is being sent. -/
def Refills (F : Feed n ρ) (m : Machine n ρ) (r : ρ) (ws : List (ℕ × UInt8)) : Prop :=
  m.flight = none ∧ (m.buffer.writes ws).bytes = F.frame r ∨
    m.buffer.bytes = F.frame r ∧ ∀ p ∈ ws, (F.frame r)[p.1]? = some p.2

/-- What has been started, what is being written and what is still to do
are the requests, in order; and what has been sent, with the transfer in
flight, is the contents of those started. -/
structure Good (F : Feed n ρ) (rs done : List ρ) (cur : Option ρ) (m : Machine n ρ) : Prop where
  order : rs = done ++ (cur.toList ++ m.todo)
  between : m.writing = none → cur = none
  refill : ∀ ws, m.writing = some ws → ∃ r, cur = some r ∧ F.Refills m r ws
  ready : m.flight = none → m.sent = done.map F.frame
  flying : ∀ seen, m.flight = some seen → ∃ before r, done = before ++ [r] ∧
    m.sent = before.map F.frame ∧ m.buffer.bytes = F.frame r ∧
    seen = (F.frame r).take seen.length

theorem good_idle (buffer : Block n) (rs : List ρ) : F.Good rs [] none (idle buffer rs) where
  order := rfl
  between _ := rfl
  refill _ h := by cases h
  ready _ := rfl
  flying _ h := by cases h

/-- Where it holds no byte that is being sent is about to change. -/
theorem Good.calm (h : F.Good rs done cur m) : Calm m := by
  intro hflight p ws hws
  obtain ⟨r, -, ⟨hnone, -⟩ | ⟨hbytes, hagree⟩⟩ := h.refill _ hws
  · exact absurd hnone hflight
  · rw [hbytes]
    exact hagree p List.mem_cons_self

/-- And what has been sent are the first frames, in order. -/
theorem Good.sent_prefix (h : F.Good rs done cur m) : m.sent <+: rs.map F.frame := by
  rw [h.order, List.map_append]
  rcases hm : m.flight with - | seen
  · rw [h.ready hm]
    exact List.prefix_append _ _
  · obtain ⟨before, r, hdone, hsent, -⟩ := h.flying seen hm
    rw [hsent, hdone, List.map_append, List.append_assoc]
    exact List.prefix_append _ _

/-- Beginning a refill keeps it, where the buffer may be rewritten. -/
theorem enter_good (h : F.Good rs done cur m) (hok : F.EnterOk m) :
    ∃ cur', F.Good rs done cur' (F.enter m) := by
  unfold enter
  split
  · rename_i r todo hwriting htodo
    have hcur := h.between hwriting
    refine ⟨some r, ?_, (fun h => by cases h), ?_, h.ready, h.flying⟩
    · rw [h.order, hcur, htodo]
      rfl
    · rintro ws hws
      obtain rfl := Option.some.inj hws
      refine ⟨r, rfl, (hok r todo hwriting htodo).imp (fun hready => ⟨hready, ?_⟩)
        fun hbytes => ⟨hbytes, F.agrees r⟩⟩
      exact Block.writes_eq (F.length_frame r) (F.agrees r) (F.covers r)
  · exact ⟨cur, h⟩

theorem store_good (h : F.Good rs done cur m) : F.Good rs done cur (store m) := by
  unfold store
  split
  · rename_i p ws hws
    obtain ⟨r, hcur, hrefill⟩ := h.refill _ hws
    refine ⟨h.order, (fun h => by cases h), ?_, h.ready, ?_⟩
    · rintro ws' hws'
      obtain rfl := Option.some.inj hws'
      refine ⟨r, hcur, hrefill.imp id ?_⟩
      rintro ⟨hbytes, hagree⟩
      refine ⟨?_, fun q hq => hagree q (List.mem_cons_of_mem p hq)⟩
      rw [← hbytes]
      exact Block.store_same (by rw [hbytes]; exact hagree p List.mem_cons_self)
    · -- in flight the store leaves the byte that is there
      intro seen hseen
      have hsame := h.calm (by rw [hseen]; exact Option.some_ne_none seen) p ws hws
      obtain ⟨before, q, hdone, hsent, hbytes, htake⟩ := h.flying seen hseen
      exact ⟨before, q, hdone, hsent, (Block.store_same hsame).trans hbytes, htake⟩
  · exact h

theorem start_good (h : F.Good rs done cur m) :
    ∃ done' cur', F.Good rs done' cur' (start m) := by
  unfold start
  split
  · rename_i hwriting hflight
    obtain ⟨r, hcur, hrefill⟩ := h.refill [] hwriting
    have hbytes : m.buffer.bytes = F.frame r := hrefill.elim (fun h => h.2) (fun h => h.1)
    refine ⟨done ++ [r], none, ?_, fun _ => rfl, (fun ws hws => by cases hws),
      (fun h => by cases h), ?_⟩
    · rw [h.order, hcur, List.append_assoc]
      rfl
    · rintro seen hseen
      obtain rfl := Option.some.inj hseen
      exact ⟨done, r, rfl, h.ready hflight, hbytes, rfl⟩
  · exact ⟨done, cur, h⟩

/-- While a transfer is in flight the buffer holds its frame, and the stores
agree with it. -/
theorem Refills.of_flight {ws : List (ℕ × UInt8)} (hflight : m.flight ≠ none)
    (h : F.Refills m r ws) :
    m.buffer.bytes = F.frame r ∧ ∀ p ∈ ws, (F.frame r)[p.1]? = some p.2 :=
  h.resolve_left fun hready => hflight hready.1

/-- A beat of the device keeps it. -/
theorem read_good (h : F.Good rs done cur m) : F.Good rs done cur (F.read m) := by
  unfold read
  split
  · rename_i seen hseen
    have hflight : m.flight ≠ none := by rw [hseen]; exact Option.some_ne_none seen
    split
    · refine ⟨h.order, h.between, fun ws hws => ?_, (fun h => by cases h), ?_⟩
      · obtain ⟨r, hcur, hrefill⟩ := h.refill ws hws
        have hcontent := hrefill.of_flight hflight
        exact ⟨r, hcur, Or.inr hcontent⟩
      · rintro seen' hseen'
        obtain rfl := Option.some.inj hseen'
        obtain ⟨before, r, hdone, hsent, hbytes, htake⟩ := h.flying seen hseen
        refine ⟨before, r, hdone, hsent, hbytes, ?_⟩
        have hmore : seen ++ (m.buffer.bytes.drop seen.length).take F.beat =
            (F.frame r).take (seen.length + F.beat) := by
          rw [List.take_add, ← htake, hbytes]
        rw [hmore, List.length_take, ← List.take_eq_take_min]
    · exact h
  · exact h

theorem finish_good (h : F.Good rs done cur m) : F.Good rs done cur (finish m) := by
  unfold finish
  split
  · rename_i seen hseen
    have hflight : m.flight ≠ none := by rw [hseen]; exact Option.some_ne_none seen
    split
    · rename_i hall
      obtain ⟨before, r, hdone, hsent, -, htake⟩ := h.flying seen hseen
      refine ⟨h.order, h.between, fun ws hws => ?_, fun _ => ?_, (fun seen h => by cases h)⟩
      · obtain ⟨q, hcur, hrefill⟩ := h.refill ws hws
        have hcontent := hrefill.of_flight hflight
        exact ⟨q, hcur, Or.inr hcontent⟩
      · rw [List.take_of_length_le (by rw [F.length_frame]; exact hall)] at htake
        rw [hdone, List.map_append, ← hsent, htake]
        rfl
    · exact h
  · exact h

/-- **One move** keeps it, by cases on whose it is. -/
theorem step_good {a : Act} (h : F.Good rs done cur m) (hok : a = .enter → F.EnterOk m) :
    ∃ done' cur', F.Good rs done' cur' (F.step m a) := by
  cases a with
  | enter => exact ⟨done, enter_good h (hok rfl)⟩
  | store => exact ⟨done, cur, store_good h⟩
  | start => exact start_good h
  | read => exact ⟨done, cur, read_good h⟩
  | finish => exact ⟨done, cur, finish_good h⟩

/-- **A schedule** that is spaced keeps it, by induction over its moves. -/
theorem run_good {acts : List Act} (h : F.Good rs done cur m) (hspaced : F.Spaced m acts) :
    ∃ done' cur', F.Good rs done' cur' (F.run m acts) := by
  induction acts using List.reverseRecOn with
  | nil => exact ⟨done, cur, h⟩
  | append_singleton acts a ih =>
      obtain ⟨done', cur', hgood⟩ := ih hspaced.left
      rw [run_append]
      refine step_good hgood ?_
      rintro rfl
      exact hspaced acts [] rfl

/-- **On a spaced schedule no transfer is disturbed**, and what is sent is
the contents of the requests, whole and in order. -/
theorem run_calm {buffer : Block n} {acts : List Act}
    (hspaced : F.Spaced (idle buffer rs) acts) :
    Calm (F.run (idle buffer rs) acts) ∧
      (F.run (idle buffer rs) acts).sent <+: rs.map F.frame := by
  obtain ⟨done, cur, hgood⟩ := run_good (good_idle buffer rs) hspaced
  exact ⟨hgood.calm, hgood.sent_prefix⟩

/-! ## Runs of one side -/

/-- The program writes to the end of its refill, when it alone moves. -/
theorem run_stores {ws : List (ℕ × UInt8)} (hws : m.writing = some ws) :
    F.run m (List.replicate ws.length .store) =
      { m with buffer := m.buffer.writes ws, writing := some [] } := by
  induction ws generalizing m with
  | nil =>
      show m = { m with buffer := m.buffer, writing := some [] }
      rw [← hws]
  | cons p ws ih =>
      have hstep : F.step m .store =
          { m with buffer := m.buffer.store p.1 p.2, writing := some ws } := by
        simp only [step, store, hws]
      show F.run (F.step m .store) (List.replicate ws.length .store) = _
      rw [hstep, ih rfl]
      rfl

/-- The program refills the buffer, while nothing else moves. -/
def refill (r : ρ) : List Act := .enter :: List.replicate (F.stores r).length .store

theorem run_refill {todo : List ρ} (hwriting : m.writing = none) (htodo : m.todo = r :: todo) :
    ∃ buffer : Block n, buffer.bytes = F.frame r ∧
      F.run m (F.refill r) = { m with buffer := buffer, writing := some [], todo := todo } := by
  have hstep : F.step m .enter = { m with writing := some (F.stores r), todo := todo } := by
    simp only [step, enter, hwriting, htodo]
  refine ⟨m.buffer.writes (F.stores r),
    Block.writes_eq (F.length_frame r) (F.agrees r) (F.covers r), ?_⟩
  show F.run (F.step m .enter) _ = _
  rw [hstep, run_stores rfl]

theorem run_refill_start {todo : List ρ} (hwriting : m.writing = none) (hflight : m.flight = none)
    (htodo : m.todo = r :: todo) :
    ∃ buffer : Block n, buffer.bytes = F.frame r ∧
      F.run m (F.refill r ++ [.start]) = ⟨buffer, some [], m.sent, none, todo⟩ := by
  obtain ⟨buffer, hbytes, hrefill⟩ := run_refill hwriting htodo
  refine ⟨buffer, hbytes, ?_⟩
  rw [run_append, hrefill]
  show start _ = _
  simp only [start, hflight]

/-- The device reads on, as many beats as it is given. -/
theorem run_reads {seen : List UInt8} {k : ℕ} (hflight : m.flight = some seen)
    (hk : seen.length + F.beat * k ≤ n) :
    F.run m (List.replicate k .read) =
      { m with flight := some (seen ++ (m.buffer.bytes.drop seen.length).take (F.beat * k)) } := by
  induction k generalizing m seen with
  | zero =>
      show m = _
      rw [Nat.mul_zero, List.take_zero, List.append_nil, ← hflight]
  | succ k ih =>
      rw [Nat.mul_succ] at hk
      by_cases hlt : seen.length < n
      · have hbeat : ((m.buffer.bytes.drop seen.length).take F.beat).length = F.beat := by
          rw [List.length_take, List.length_drop, m.buffer.length_eq]
          omega
        have hstep : F.step m .read = { m with
            flight := some (seen ++ (m.buffer.bytes.drop seen.length).take F.beat) } := by
          simp only [step, read, hflight, if_pos hlt]
        show F.run (F.step m .read) (List.replicate k .read) = _
        rw [hstep, ih rfl (by rw [List.length_append, hbeat]; omega)]
        simp only [List.length_append, hbeat, List.append_assoc]
        rw [Nat.mul_succ, Nat.add_comm (F.beat * k), List.take_add, List.drop_drop]
      · -- nothing is left to read, so a beat is nothing
        have hbeat : F.beat = 0 := by omega
        have hstep : F.step m .read = m := by
          simp only [step, read, hflight, if_neg hlt]
        show F.run (F.step m .read) (List.replicate k .read) = _
        rw [hstep, ih hflight (by omega), hbeat]
        simp only [Nat.zero_mul]

/-- The device reads to the end and is done, while nothing else moves. -/
def drain (k : ℕ) : List Act := List.replicate k .read ++ [.finish]

/-- Then what it has read is sent, and it is ready again. -/
theorem run_drain {seen : List UInt8} {k : ℕ} (hflight : m.flight = some seen)
    (hk : seen.length + F.beat * k = n) :
    F.run m (drain k) = { m with
      flight := none
      sent := m.sent ++ [seen ++ m.buffer.bytes.drop seen.length] } := by
  have hrest : (m.buffer.bytes.drop seen.length).take (F.beat * k) =
      m.buffer.bytes.drop seen.length :=
    List.take_of_length_le (by rw [List.length_drop, m.buffer.length_eq]; omega)
  rw [drain, run_append, run_reads hflight (Nat.le_of_eq hk), hrest]
  refine if_pos ?_
  rw [List.length_append, List.length_drop, m.buffer.length_eq]
  omega

/-- A request whose transfer the program waits for, from its refill to its
end. -/
def whole (k : ℕ) (r : ρ) : List Act := F.refill r ++ [.start] ++ drain k

/-- **It is sent whole**, and the device is ready again. -/
theorem run_whole {todo : List ρ} {k : ℕ} (hwriting : m.writing = none) (hflight : m.flight = none)
    (htodo : m.todo = r :: todo) (hk : F.beat * k = n) :
    ∃ buffer : Block n,
      F.run m (F.whole k r) = ⟨buffer, none, m.sent ++ [F.frame r], none, todo⟩ := by
  obtain ⟨buffer, hbytes, hrun⟩ := run_refill_start hwriting hflight htodo
  refine ⟨buffer, ?_⟩
  rw [whole, run_append, hrun, run_drain rfl (by rw [List.length_nil, Nat.zero_add, hk])]
  rw [List.length_nil, List.drop_zero, hbytes]
  rfl

/-- **A program that waits for every transfer is spaced**, by induction over
its requests. -/
theorem spaced_whole {k : ℕ} (hwriting : m.writing = none) (hflight : m.flight = none)
    (htodo : m.todo = rs) (hk : F.beat * k = n) : F.Spaced m (rs.flatMap (F.whole k)) := by
  induction rs generalizing m with
  | nil => exact spaced_of_notMem F List.not_mem_nil
  | cons r rs ih =>
      have hrest :
          Act.enter ∉ List.replicate (F.stores r).length .store ++ [.start] ++ drain k := by
        simp [drain]
      have hfirst : F.Spaced m (F.whole k r) :=
        (spaced_enter F fun _ _ _ _ => Or.inl hflight).append F (spaced_of_notMem F hrest)
      obtain ⟨buffer, hrun⟩ := run_whole hwriting hflight htodo hk
      rw [List.flatMap_cons]
      refine hfirst.append F ?_
      rw [hrun]
      exact ih rfl rfl rfl

/-! ## What another one can do -/

/-- While a transfer is in flight and the program alone moves, the stores
left change a byte, or all of them leave the buffer. -/
theorem exists_store_not_calm {ws : List (ℕ × UInt8)} (hflight : m.flight ≠ none)
    (hws : m.writing = some ws) :
    (∃ k, ¬Calm (F.run m (List.replicate k .store))) ∨
      (m.buffer.writes ws).bytes = m.buffer.bytes := by
  induction ws generalizing m with
  | nil => exact Or.inr rfl
  | cons p ws ih =>
      by_cases hsame : m.buffer.bytes[p.1]? = some p.2
      · have hstep : F.step m .store =
            { m with buffer := m.buffer.store p.1 p.2, writing := some ws } := by
          simp only [step, store, hws]
        rcases ih (m := F.step m .store) (by rw [hstep]; exact hflight) (by rw [hstep]) with
          ⟨k, hk⟩ | hall
        · exact Or.inl ⟨k + 1, hk⟩
        · rw [hstep] at hall
          exact Or.inr (hall.trans (Block.store_same hsame))
      · exact Or.inl ⟨0, fun hcalm => hsame (hcalm hflight p ws hws)⟩

/-- **A refill begun in any other state can change a byte that is being
sent.** -/
theorem exists_not_calm {todo : List ρ} (hwriting : m.writing = none) (htodo : m.todo = r :: todo)
    (hflight : m.flight ≠ none) (hbytes : m.buffer.bytes ≠ F.frame r) :
    ∃ acts, ¬Calm (F.run m acts) := by
  have hstep : F.step m .enter = { m with writing := some (F.stores r), todo := todo } := by
    simp only [step, enter, hwriting, htodo]
  rcases exists_store_not_calm (F := F) (m := F.step m .enter) (by rw [hstep]; exact hflight)
    (by rw [hstep]) with ⟨k, hk⟩ | hall
  · exact ⟨.enter :: List.replicate k .store, hk⟩
  · rw [hstep] at hall
    exact absurd (hall.symm.trans (Block.writes_eq (F.length_frame r) (F.agrees r) (F.covers r)))
      hbytes

/-- Next to each other in the list of requests, one in flight and one to
come. -/
theorem Good.enterOk (h : F.Good rs done cur m)
    (hchain : rs.IsChain fun a b => F.frame a = F.frame b) : F.EnterOk m := by
  intro r todo hwriting htodo
  rcases hm : m.flight with - | seen
  · exact Or.inl rfl
  · obtain ⟨before, q, hdone, -, hbytes, -⟩ := h.flying seen hm
    have horder := h.order
    rw [h.between hwriting, htodo, hdone] at horder
    have hsplit : rs = before ++ q :: r :: todo := by
      rw [horder, List.append_assoc]
      rfl
    rw [hsplit] at hchain
    exact Or.inr (hbytes.trans (List.isChain_append_cons_cons.mp hchain).2.1)

/-- Two requests of different contents, one behind the other, can meet. -/
theorem isChain_of_calm (hwriting : m.writing = none) (hflight : m.flight = none)
    (htodo : m.todo = rs) {k : ℕ} (hk : F.beat * k = n)
    (hcalm : ∀ acts, Calm (F.run m acts)) : rs.IsChain fun a b => F.frame a = F.frame b := by
  induction rs generalizing m with
  | nil => exact List.isChain_nil
  | cons r rs ih =>
      have hrest : rs.IsChain fun a b => F.frame a = F.frame b := by
        obtain ⟨buffer, hrun⟩ := run_whole hwriting hflight htodo hk
        refine ih (m := F.run m (F.whole k r)) ?_ ?_ ?_ fun acts => ?_
        · rw [hrun]
        · rw [hrun]
        · rw [hrun]
        · rw [← run_append]
          exact hcalm _
      rcases rs with - | ⟨q, rs⟩
      · exact List.isChain_singleton r
      · refine List.isChain_cons_cons.mpr ⟨?_, hrest⟩
        by_contra hne
        obtain ⟨buffer, hbytes, hrun⟩ := run_refill_start hwriting hflight htodo
        have hnext : (F.run m (F.refill r ++ [.start])).todo = q :: rs := by rw [hrun]
        obtain ⟨acts, hacts⟩ := exists_not_calm (by rw [hrun]) hnext
          (by rw [hrun]; exact Option.some_ne_none []) (by rw [hrun, hbytes]; exact hne)
        rw [← run_append] at hacts
        exact hacts (hcalm _)

/-- **Every schedule is calm exactly where every request leaves the
content of the one before it.** -/
theorem forall_calm_iff (buffer : Block n) (rs : List ρ) {k : ℕ} (hk : F.beat * k = n) :
    (∀ acts, Calm (F.run (idle buffer rs) acts) ∧
        (F.run (idle buffer rs) acts).sent <+: rs.map F.frame) ↔
      rs.IsChain fun a b => F.frame a = F.frame b := by
  constructor
  · exact fun h => isChain_of_calm rfl rfl rfl hk fun acts => (h acts).1
  · intro hchain acts
    obtain ⟨done, cur, hgood⟩ : ∃ done cur, F.Good rs done cur (F.run (idle buffer rs) acts) := by
      induction acts using List.reverseRecOn with
      | nil => exact ⟨[], none, good_idle buffer rs⟩
      | append_singleton acts a ih =>
          obtain ⟨done, cur, hgood⟩ := ih
          rw [run_append]
          exact step_good hgood fun _ => hgood.enterOk hchain
    exact ⟨hgood.calm, hgood.sent_prefix⟩

end

end Feed

end WeatherTerminal
