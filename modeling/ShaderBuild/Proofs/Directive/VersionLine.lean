import ShaderBuild.Proofs.Directive.Inert
import ShaderBuild.Version

/-!
# The Version Line

What the line in front of a source is to a scan of it: one line, no directive
though it begins with a number sign, and nothing of a comment.

The language version is computed from the numbers of the context, so the line is
not a fixed text. But all it can ever contain is digits and the letters of two
words, and none of these breaks a line or belongs to the mark of a comment.

## Main definitions

* `ContextVersion.isLineChar`: A character of a version line.

## Theorems

* `isLineChar_of_mem`: There are no others in such a line.
* `lines_directive`: A version line is one line.
* `inert_directive`, `openAfter_directive`: It is no directive, and it opens and
  closes no comment.
-/

namespace ShaderBuild

theorem lines_of_unbroken {t : Text} (h : ∀ c ∈ t, c ≠ '\n' ∧ c ≠ '\r') :
    lines (t ++ ['\n']) = [⟨t, .lineFeed⟩] := by
  induction t with
  | nil => rfl
  | cons c rest ih =>
      obtain ⟨hc, hrest⟩ := List.forall_mem_cons.mp h
      rw [List.cons_append, lines.eq_4 c _ hc.1 fun _ hreturn => absurd hreturn hc.2, ih hrest]
      rfl

namespace ContextVersion

/-- A character of a version line, without the line feed. -/
def isLineChar (c : Char) : Bool :=
  c.isDigit || "#version es".toList.contains c

theorem isLineChar_of_mem_toString {n : Nat} {c : Char} (h : c ∈ (toString n).toList) :
    isLineChar c = true := by
  -- Decimal digits, in front of which no sign stands.
  rw [Nat.toString_eq_repr, Nat.repr_eq_ofList_toDigits, String.toList_ofList] at h
  have hdigit : c.isDigit = true := Nat.isDigit_of_mem_toDigits (by decide) (by decide) h
  rw [isLineChar, hdigit, Bool.true_or]

theorem isLineChar_of_mem_aligned {v : ContextVersion} {c : Char} (h : c ∈ v.aligned.toList) :
    isLineChar c = true := by
  rw [aligned, String.toList_append, String.toList_append, List.mem_append, List.mem_append] at h
  -- The parts are the major number, the minor number and a zero.
  rcases h with (hmajor | hminor) | hzero
  · exact isLineChar_of_mem_toString hmajor
  · exact isLineChar_of_mem_toString hminor
  · obtain rfl : c = '0' := List.mem_singleton.mp hzero
    decide

theorem all_isLineChar_early :
    earlyLanguage.all (fun entry => entry.2.toList.all isLineChar) = true := by
  decide

theorem isLineChar_of_mem_language {v : ContextVersion} {c : Char} (h : c ∈ v.language.toList) :
    isLineChar c = true := by
  rw [language] at h
  -- An embedded version is an aligned number with the profile behind it.
  split at h
  · rw [String.toList_append, List.mem_append] at h
    rcases h with haligned | hprofile
    · exact isLineChar_of_mem_aligned haligned
    · exact List.all_eq_true.mp (show " es".toList.all isLineChar = true by decide) c hprofile
  · -- The early versions are looked up, and there are only a few.
    cases hearly : earlyLanguage.lookup (v.major, v.minor) with
    | none =>
        rw [hearly] at h
        exact isLineChar_of_mem_aligned h
    | some number =>
        rw [hearly] at h
        obtain ⟨before, after, hentries, -⟩ := List.lookup_eq_some_iff.mp hearly
        have hentry : ((v.major, v.minor), number) ∈ earlyLanguage := by
          rw [hentries]
          exact List.mem_append_right _ List.mem_cons_self
        exact List.all_eq_true.mp (List.all_eq_true.mp all_isLineChar_early _ hentry) c h

theorem isLineChar_of_mem {v : ContextVersion} {c : Char}
    (h : c ∈ "#version ".toList ++ v.language.toList) : isLineChar c = true := by
  rcases List.mem_append.mp h with hword | hlanguage
  · exact List.all_eq_true.mp (show "#version ".toList.all isLineChar = true by decide) c hword
  · exact isLineChar_of_mem_language hlanguage

theorem ne_of_mem {v : ContextVersion} {c other : Char}
    (h : c ∈ "#version ".toList ++ v.language.toList) (hother : isLineChar other = false) :
    c ≠ other := by
  rintro rfl
  rw [isLineChar_of_mem h] at hother
  cases hother

theorem lines_directive (v : ContextVersion) :
    lines v.directive.toList = [⟨"#version ".toList ++ v.language.toList, .lineFeed⟩] := by
  rw [directive, String.toList_append, String.toList_append]
  -- A version line has no line ends and no slashes in it, as neither is one of its characters.
  exact lines_of_unbroken fun c hc => ⟨ne_of_mem hc (by decide), ne_of_mem hc (by decide)⟩

theorem lineAligned_directive (v : ContextVersion) : LineAligned v.directive.toList := by
  rw [lineAligned_iff, lines_directive, List.forall_mem_singleton]
  exact nofun

/-- A version line is no directive: the word after its sign is another. -/
theorem inert_directive (commented : Bool) (v : ContextVersion) :
    Inert commented (lines v.directive.toList) := by
  rw [lines_directive]
  exact ⟨fun _ => rfl, trivial⟩

theorem openAfter_directive (commented : Bool) (v : ContextVersion) :
    openAfter commented (lines v.directive.toList) = commented := by
  rw [lines_directive]
  exact inComment_of_no_slash (fun hslash => ne_of_mem hslash (by decide) rfl) commented

end ContextVersion

end ShaderBuild
