import FangaOS.Lib.CommonPrefix

/-! Tab completion of `shell/completion.rs`.  The commands are ASCII, so their
bytes are their characters. -/

namespace FangaOS.Shell

open CommonPrefix

def commands : List (List Char) :=
  ["clear", "echo", "exit", "help", "memory", "ping", "power", "ps", "reboot", "shutdown",
    "suspend", "uname", "uptime"].map String.toList

def complete (pre : List Char) : List (List Char) :=
  if pre.isEmpty then [] else commands.filter fun cmd => pre.isPrefixOf cmd

def completeSingle (pre : List Char) : Option (List Char) :=
  match complete pre with
  | [single] => some single
  | _ => none

/-- The inner loop of `complete_common` on one more match: the first index below
`min(common_len, cmd.len())` where they differ, or `common_len`. -/
def scanCommon (first : List Char) (commonLen : Nat) (cmd : List Char) : Nat :=
  let minLen := min commonLen cmd.length
  match (List.range minLen).find? (fun i => first[i]? != cmd[i]?) with
  | some i => i
  | none => commonLen

def completeCommon (pre : List Char) : Option (List Char) :=
  match complete pre with
  | [] => none
  | [single] => some single
  | first :: rest => some (first.take (rest.foldl (scanCommon first) first.length))

theorem commands_prefixFree : ∀ cmd ∈ commands, ∀ other ∈ commands, cmd <+: other → cmd = other := by
  decide

theorem mem_complete {pre cmd : List Char} :
    cmd ∈ complete pre ↔ pre ≠ [] ∧ cmd ∈ commands ∧ pre <+: cmd := by
  unfold complete
  cases pre with
  | nil => simp
  | cons c cs => simp [List.isPrefixOf_iff_prefix]

theorem completeCommon_eq (pre : List Char) :
    completeCommon pre =
      match complete pre with
      | [] => none
      | first :: rest => some (first.take (rest.foldl (scanCommon first) first.length)) := by
  unfold completeCommon
  cases complete pre with
  | nil => rfl
  | cons first rest =>
      cases rest with
      | nil => simp
      | cons second rest => rfl

theorem scanCommon_eq {first cmd : List Char} {commonLen : Nat} (within : commonLen ≤ first.length)
    (notShorter : cmd <+: first → commonLen ≤ cmd.length) :
    scanCommon first commonLen cmd = min commonLen (commonPrefix first cmd).length := by
  unfold scanCommon
  dsimp only
  by_cases inside : (commonPrefix first cmd).length < min commonLen cmd.length
  · -- the scan stops at the end of the common prefix
    have found : (List.range (min commonLen cmd.length)).find? (fun i => first[i]? != cmd[i]?) =
        some (commonPrefix first cmd).length := by
      rw [List.find?_range_eq_some]
      refine ⟨?_, List.mem_range.mpr inside, fun j below => ?_⟩
      · have differ := getElem?_ne_of_length_commonPrefix_lt (l := first) (m := cmd) (by omega)
        simpa using differ
      · simpa using getElem?_eq_of_lt_length_commonPrefix below
    rw [found]
    dsimp only
    omega
  · -- the scan runs to its end, which the common prefix reaches
    have through : (List.range (min commonLen cmd.length)).find? (fun i => first[i]? != cmd[i]?) =
        none := by
      rw [List.find?_range_eq_none]
      intro i below
      simpa using getElem?_eq_of_lt_length_commonPrefix (l := first) (m := cmd) (by omega)
    rw [through]
    dsimp only
    by_cases fits : commonLen ≤ cmd.length
    · omega
    · have whole : commonPrefix first cmd = cmd :=
        (commonPrefix_prefix_right first cmd).eq_of_length_le (by omega)
      have isPrefix : cmd <+: first := whole ▸ commonPrefix_prefix_left first cmd
      exact absurd (notShorter isPrefix) fits

theorem scanCommon_le (first : List Char) (commonLen : Nat) (cmd : List Char) :
    scanCommon first commonLen cmd ≤ commonLen := by
  unfold scanCommon
  dsimp only
  split
  · rename_i index found
    have inRange := List.mem_range.mp (List.find?_range_eq_some.mp found).2.1
    omega
  · exact le_refl _

theorem foldl_scanCommon_le (first : List Char) (rest : List (List Char)) (commonLen : Nat) :
    rest.foldl (scanCommon first) commonLen ≤ commonLen := by
  induction rest generalizing commonLen with
  | nil => exact le_refl _
  | cons cmd rest ih => exact (ih _).trans (scanCommon_le first commonLen cmd)

theorem take_foldl_scanCommon {first : List Char} {rest : List (List Char)}
    (noShorter : ∀ cmd ∈ rest, cmd <+: first → cmd.length = first.length) :
    first.take (rest.foldl (scanCommon first) first.length) = longest first rest := by
  induction rest using List.reverseRecOn with
  | nil => simp [longest]
  | append_singleton rest cmd ih =>
      have earlier := ih fun other member => noShorter other (List.mem_append_left _ member)
      have within := foldl_scanCommon_le first rest first.length
      have scanned : scanCommon first (rest.foldl (scanCommon first) first.length) cmd =
          min (rest.foldl (scanCommon first) first.length) (commonPrefix first cmd).length :=
        scanCommon_eq within fun isPrefix => (noShorter cmd (by simp) isPrefix).symm ▸ within
      have asTake : commonPrefix first cmd = first.take (commonPrefix first cmd).length :=
        List.prefix_iff_eq_take.mp (commonPrefix_prefix_left first cmd)
      rw [List.foldl_concat, longest_concat, ← earlier, scanned, commonPrefix_take_left]
      conv_rhs => rw [asTake, List.take_take]

/-- `complete_common` returns nothing exactly when no command matches, and
otherwise the longest prefix that all matching commands share, which extends
the prefix typed. -/
theorem complete_common_longest_prefix (pre : List Char) :
    (completeCommon pre = none ↔ complete pre = []) ∧
    ∀ result, completeCommon pre = some result →
      pre <+: result ∧ (∀ cmd ∈ complete pre, result <+: cmd) ∧
      ∀ shared, (∀ cmd ∈ complete pre, shared <+: cmd) → shared <+: result := by
  rw [completeCommon_eq]
  cases matched : complete pre with
  | nil => simp
  | cons first rest =>
      have matching : ∀ cmd ∈ first :: rest, pre ≠ [] ∧ cmd ∈ commands ∧ pre <+: cmd := by
        intro cmd member
        rw [← matched] at member
        exact mem_complete.mp member
      have noShorter : ∀ cmd ∈ rest, cmd <+: first → cmd.length = first.length := by
        intro cmd member isPrefix
        have same := commands_prefixFree cmd (matching cmd (by simp [member])).2.1 first
          (matching first (by simp)).2.1 isPrefix
        rw [same]
      refine ⟨by simp, fun result found => ?_⟩
      rw [Option.some.injEq, take_foldl_scanCommon noShorter] at found
      subst found
      have shared : ∀ s, s <+: longest first rest ↔ ∀ cmd ∈ first :: rest, s <+: cmd := by
        intro s
        rw [prefix_longest_iff, List.forall_mem_cons]
      refine ⟨(shared pre).mpr fun cmd member => (matching cmd member).2.2,
        (shared _).mp (List.prefix_refl _), fun s onAll => (shared s).mpr onAll⟩

end FangaOS.Shell
