import Lineside.Track.Query

/-! A head that answers for itself, or refers back to a signal of the network, does so after every change a
script can make. Changes go to single heads and leave all signals, links and references as they are. -/

namespace Lineside

namespace Network

variable (network : Network)

theorem signalAt_modifySignal (address other : Address) (change : Signal → Signal) :
    (network.modifySignal address change).signalAt other =
      (network.signalAt other).map fun signal => if address = other then change signal else signal := by
  simp only [signalAt, modifySignal, List.getElem?_modify]
  by_cases here : address = other <;> simp [here]

theorem locate?_modifySignal (address : Address) (change : Signal → Signal) (id : String) :
    (network.modifySignal address change).locate? id = (network.locate? id).map fun found =>
      (found.1, if address = found.1 then change found.2 else found.2) := by
  have table : (network.modifySignal address change).table = network.table := rfl
  simp only [locate?, table, signalAt_modifySignal]
  cases network.table.lookup id with
  | none => rfl
  | some other => simp [Function.comp_def]

theorem locate?_eq_some {network : Network} {id : String} {address : Address} {signal : Signal} :
    network.locate? id = some (address, signal) ↔
      network.table.lookup id = some address ∧ network.signalAt address = some signal := by
  rw [locate?]
  cases network.table.lookup id with
  | none => simp
  | some other =>
    simp only [Option.bind_some, Option.map_eq_some_iff, Prod.mk.injEq, Option.some.injEq]
    exact ⟨fun ⟨_, there, here, same⟩ => ⟨here, here ▸ same ▸ there⟩, fun ⟨here, there⟩ => ⟨signal, here ▸ there, here, rfl⟩⟩

/-- What a change of a head does to the head at some place. -/
theorem head?_modifyHead (ref other : HeadRef) (change : Head → Head) :
    (network.modifyHead ref change).head? other =
      (network.head? other).map fun head => if ref = other then change head else head := by
  obtain ⟨address, index⟩ := ref
  obtain ⟨place, position⟩ := other
  simp only [head?, modifyHead, signalAt_modifySignal, HeadRef.mk.injEq]
  cases network.signalAt place with
  | none => rfl
  | some signal =>
    by_cases here : address = place
    · by_cases there : index = position <;> simp [here, there]
    · simp [here]

/-- A network of signals that are added in order, with a train. -/
def holding (signals : List Signal) (train : Option Train) : Network :=
  let network : Network := signals.foldl (fun network signal => (add network signal).2) {}
  (network.placeTrain train).2

/-- The head refers back to the signal that carries it. -/
def Mounted (ref : HeadRef) : Prop := ∃ head, network.head? ref = some head ∧ head.owner = some ref.signal

/-- If there is such a head at all, it refers back to the signal that carries it. -/
def RefersBack (ref : HeadRef) : Prop := ∀ head, network.head? ref = some head → head.owner = some ref.signal

end Network

namespace Scene

/-- The head can be asked about everything: it is foreign, or refers to a signal. -/
def Attached (scene : Scene) : Prop :=
  match scene.subject with
  | .foreign _ => True
  | _ => scene.own?.isSome

theorem slotValue_ok (scene : Scene) (attached : scene.Attached) (slot : Slot) :
    ∃ value, scene.slotValue slot = .ok value := by
  have answers : ∃ enabled block, scene.enabled = .ok enabled ∧ scene.headBlock = .ok block := by
    unfold Attached at attached
    cases subject : scene.subject with
    | foreign head => exact ⟨head.enabled, head.block, by simp [enabled, subject], by simp [headBlock, subject]⟩
    | mounted | loose =>
      rw [subject] at attached
      obtain ⟨⟨signal, head⟩, found⟩ := Option.isSome_iff_exists.mp attached
      exact ⟨signal.enabled, signal.block, by simp [enabled, subject, found], by simp [headBlock, subject, found]⟩
  obtain ⟨enabled, block, first, second⟩ := answers
  cases slot <;> simp [slotValue, first, second, Except.map]

/-- A mounted head is asked about the signal that carries it. -/
theorem own?_mounted {network : Network} {ref : HeadRef} (mounted : network.Mounted ref) :
    ∃ signal head, network.signalAt ref.signal = some signal ∧ signal.heads[ref.index]? = some head ∧
      head.owner = some ref.signal ∧ own? ⟨network, .mounted ref⟩ = some (signal, head) := by
  obtain ⟨head, there, owner⟩ := mounted
  obtain ⟨signal, carries, place⟩ := Option.bind_eq_some_iff.mp there
  exact ⟨signal, head, carries, place, owner, by simp [own?, head?, there, owner, carries]⟩

section Changes

variable {scene : Scene} {change : Head → Head} (keeps : ∀ head, (change head).owner = head.owner)

include keeps

theorem own?_modifyHead_isSome : (scene.modifyHead change).own?.isSome = scene.own?.isSome := by
  cases subject : scene.subject with
  | mounted ref =>
    simp only [own?, head?, modifyHead, subject, Network.head?_modifyHead, if_true]
    cases scene.network.head? ref with
    | none => rfl
    | some head => cases owner : head.owner <;> simp [keeps, owner, Network.modifyHead, Network.signalAt_modifySignal]
  | loose head => cases owner : head.owner <;> simp [own?, head?, modifyHead, subject, keeps, owner]
  | foreign head => simp [modifyHead, subject]

theorem Attached.modifyHead (attached : scene.Attached) : (scene.modifyHead change).Attached := by
  have same : (scene.modifyHead change).own?.isSome = scene.own?.isSome := own?_modifyHead_isSome keeps
  unfold Attached at attached ⊢
  cases subject : scene.subject with
  | foreign head => simp [Scene.modifyHead, subject]
  | mounted | loose =>
    rw [subject] at attached
    simpa [Scene.modifyHead, subject] using same.trans attached

end Changes

variable {scene : Scene}

theorem Attached.setState (attached : scene.Attached) (aspect : Aspect) : (scene.setState aspect).Attached := by
  unfold Scene.setState
  split
  · simp [Attached]
  · exact attached.modifyHead fun _ => rfl

theorem Attached.setDrawState (attached : scene.Attached) (value : Int64) :
    (scene.setDrawState value).Attached := by
  unfold Scene.setDrawState
  split
  · simp [Attached]
  · exact attached.modifyHead fun _ => rfl

theorem Attached.requestPosition (attached : scene.Attached) (distance : Int64) :
    (scene.requestPosition distance).2.Attached := by
  unfold Scene.requestPosition
  split
  · exact attached
  · exact attached.modifyHead fun _ => rfl

theorem Attached.requestSpeed (attached : scene.Attached) (distance speed : Int64) :
    (scene.requestSpeed distance speed).2.Attached := by
  unfold Scene.requestSpeed
  split
  · exact attached
  · exact attached.modifyHead fun _ => rfl

theorem Attached.allowPartialRoute (attached : scene.Attached) (allow : Bool) :
    (scene.allowPartialRoute allow).Attached := by
  unfold Scene.allowPartialRoute
  split
  · exact attached.modifyHead fun _ => rfl
  · exact attached

end Scene

end Lineside
