import SmallLisp.Text.Size
import SmallLisp.Text.Cluster.Basic

/-!
# Backspaces

In a line of an interactive session a backspace takes back the cluster before it, so that what is
read is what a terminal would show.
-/

namespace SmallLisp.Text

/-- The size of a cluster, of which one byte is kept. -/
def clusterSize (cluster : List Char) : Nat := byteSize cluster % 256

/-- Types clusters after a text in reverse, with the sizes of its clusters. A backspace that finds
none does nothing. -/
def typeFrom (sizes : List Nat) (text : List Char) : List (List Char) → List Char
  | [] => text.reverse
  | cluster :: clusters =>
    if cluster = ['\x08'] then
      match sizes with
      | [] => typeFrom [] text clusters
      | size :: sizes => typeFrom sizes (dropBytes size text) clusters
    else typeFrom (clusterSize cluster :: sizes) (cluster.reverse ++ text) clusters

/-- The text that is left once every backspace has taken back what it can. -/
def applyBackspaces (cs : List Char) : List Char := typeFrom [] [] (Cluster.split cs)

theorem typeFrom_of_not_mem (sizes : List Nat) (text : List Char) {clusters : List (List Char)}
    (h : ['\x08'] ∉ clusters) :
    typeFrom sizes text clusters = text.reverse ++ clusters.flatten := by
  induction clusters generalizing sizes text with
  | nil => simp [typeFrom]
  | cons cluster clusters ih =>
    rw [List.mem_cons, not_or] at h
    simp [typeFrom, Ne.symm h.1, ih _ _ h.2]

/-- A text without backspaces is left as it is. -/
theorem applyBackspaces_of_not_mem {cs : List Char} (h : '\x08' ∉ cs) :
    applyBackspaces cs = cs := by
  have : ['\x08'] ∉ Cluster.split cs := fun hm => h <| by
    rw [← Cluster.flatten_split cs]
    exact List.mem_flatten_of_mem hm (List.mem_singleton_self _)
  simpa [applyBackspaces, Cluster.flatten_split] using typeFrom_of_not_mem [] [] this

end SmallLisp.Text
