import WeatherTerminal.Led.Encode
/-!
# The LED strip — when a frame can tear

`RGB_Reflash` waits for the transfer in flight only behind the loop that
rewrites the buffer. A refresh begun while the previous one is being sent
is therefore harmless only where it rewrites what is there; and
`led_matrix_set_time` begins its second refresh right behind its first.
-/

namespace WeatherTerminal

namespace Led

open Feed

/-- The strip with nothing under way, about to make some calls. -/
def strip (buffer : Block bufferSize) (calls : List Call) (rgb : RgbData) :
    Machine bufferSize Refresh :=
  Feed.idle buffer (refreshes calls rgb)

/-- **Frames are whole in every interleaving exactly where every refresh
writes the frame of the one before it.** In any other sequence of calls
they are whole in the runs that begin each refresh with the DMA ready, or
with the buffer as the refresh would leave it; what is sent is then the
frames of the refreshes, in order. -/
theorem frames_whole (calls : List Call) (rgb : RgbData) (buffer : Block bufferSize) :
    ((∀ acts, Calm (ledFeed.run (strip buffer calls rgb) acts) ∧
          (ledFeed.run (strip buffer calls rgb) acts).sent <+:
            (refreshes calls rgb).map Refresh.frame) ↔
        (refreshes calls rgb).IsChain fun r r' => r.frame = r'.frame) ∧
    ∀ acts : List Act, ledFeed.Spaced (strip buffer calls rgb) acts →
      Calm (ledFeed.run (strip buffer calls rgb) acts) ∧
        (ledFeed.run (strip buffer calls rgb) acts).sent <+:
          (refreshes calls rgb).map Refresh.frame :=
  ⟨forall_calm_iff buffer (refreshes calls rgb) (k := ledNum * 24) rfl,
    fun _ hspaced => run_calm hspaced⟩

/-- The application waits for every transfer it starts, and the frames come
out whole. -/
theorem frames_whole_three :
    Calm (ledFeed.run (strip (Block.filled bufferSize 0) [.setTime 3 0] (RgbData.plain dark false))
        ((refreshes [.setTime 3 0] (RgbData.plain dark false)).flatMap
          (ledFeed.whole (ledNum * 24)))) ∧
      (ledFeed.run (strip (Block.filled bufferSize 0) [.setTime 3 0] (RgbData.plain dark false))
        ((refreshes [.setTime 3 0] (RgbData.plain dark false)).flatMap
          (ledFeed.whole (ledNum * 24)))).sent <+:
        (refreshes [.setTime 3 0] (RgbData.plain dark false)).map Refresh.frame :=
  (frames_whole _ _ _).2 _ (spaced_whole rfl rfl rfl rfl)

/-! ## A torn frame -/

/-- What `led_matrix_set_time` shows first: no LED lit. -/
def darkFrame : Refresh := .reflash (fillLeds dark (RgbData.plain dark false))

/-- What it shows then, at three o'clock: the one LED of the hour. -/
def threeFrame : Refresh :=
  .reflash (lightTime 3 0 (fillLeds dark (RgbData.plain dark false)))

theorem refreshes_three :
    refreshes [.setTime 3 0] (RgbData.plain dark false) = [darkFrame, threeFrame] := rfl

/-- The first up to the fourth LED, and the second from there. -/
def mixture : List UInt8 := darkFrame.frame.take 192 ++ threeFrame.frame.drop 192

/-- Half of the one frame and half of the other is neither of them. -/
theorem mixture_torn : ([darkFrame, threeFrame].map Refresh.frame).contains mixture = false := by
  decide +kernel

/-- The moves that send it: the second refresh is written while the DMA is
before the fourth LED of the first. -/
def tearing : List Act :=
  ledFeed.refill darkFrame ++ [.start] ++
    (List.replicate 96 .read ++ (ledFeed.refill threeFrame ++ drain 360))

/-- The run in which the second refresh comes in between sends the mixture. -/
theorem run_tearing {m : Machine bufferSize Refresh} (hwriting : m.writing = none)
    (hflight : m.flight = none) (htodo : m.todo = [darkFrame, threeFrame]) :
    (ledFeed.run m tearing).sent = m.sent ++ [mixture] := by
  obtain ⟨b₁, hb₁, hstart⟩ := run_refill_start (F := ledFeed) hwriting hflight htodo
  have hlen : (b₁.bytes.take 192).length = 192 := by
    rw [List.length_take, b₁.length_eq]
    rfl
  have hreads := run_reads (F := ledFeed) (m := ⟨b₁, some [], m.sent, none, [threeFrame]⟩) (k := 96)
    rfl (by decide)
  obtain ⟨b₂, hb₂, hsecond⟩ := run_refill (F := ledFeed)
    (m := ⟨b₁, some (b₁.bytes.take 192), m.sent, none, [threeFrame]⟩) rfl rfl
  have hdrain := run_drain (F := ledFeed)
    (m := ⟨b₂, some (b₁.bytes.take 192), m.sent, some [], []⟩) (k := 360) rfl (by rw [hlen]; rfl)
  have hmix : b₁.bytes.take 192 ++ b₂.bytes.drop (b₁.bytes.take 192).length = mixture := by
    rw [hlen, hb₁, hb₂]
    rfl
  rw [tearing, run_append, hstart, run_append, hreads]
  show (ledFeed.run ⟨b₁, some (b₁.bytes.take 192), m.sent, none, [threeFrame]⟩ _).sent = _
  rw [run_append, hsecond, hdrain, hmix]

/-- **One call of `led_matrix_set_time` can tear**: a frame is sent that no
refresh wrote. -/
theorem setTime_torn :
    ¬∀ (calls : List Call) (rgb : RgbData) (buffer : Block bufferSize) (acts : List Act),
      Calm (ledFeed.run (strip buffer calls rgb) acts) ∧
        ∀ f ∈ (ledFeed.run (strip buffer calls rgb) acts).sent,
          f ∈ (refreshes calls rgb).map Refresh.frame := by
  intro h
  have hsent : (ledFeed.run (strip (Block.filled bufferSize 0) [.setTime 3 0]
      (RgbData.plain dark false)) tearing).sent = [] ++ [mixture] :=
    run_tearing rfl rfl refreshes_three
  have hmem := (h [.setTime 3 0] (RgbData.plain dark false) (Block.filled bufferSize 0) tearing).2
    mixture (by rw [hsent]; exact List.mem_singleton_self mixture)
  rw [refreshes_three] at hmem
  have hnot := mixture_torn
  rw [List.contains_eq_mem, decide_eq_false_iff_not] at hnot
  exact hnot hmem

end Led

end WeatherTerminal
