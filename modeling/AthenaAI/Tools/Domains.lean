import AthenaAI.ToMathlib.List
import AthenaAI.Tools.Http

/-!
# The labels of a host

A host name is a sequence of labels with dots between them, and a subdomain of a domain is a name
whose last labels are those of the domain. `_check_domain` looks at the characters instead.

* `labels` are the labels of a name, and `Within` says that one name lies within another one.
  `within_iff` compares it with the characters.
* `covers_iff_labels`: the test of the tool and the one on labels are the same, for all strings.
* `checkDomain_iff_labels`: the check passes exactly the hosts whose last labels are those of an
  allowed domain. A host that merely ends with the characters of one is denied
  (`not_within_append`).
-/

namespace HTTPTool

/-- `name.split(".")`. -/
def labels (name : PyStr) : List PyStr := name.splitOn '.'

/-- The last labels of the host are those of the domain. -/
def Within (host domain : PyStr) : Prop := labels domain <:+ labels host

/-- A host is a domain or ends with it after a dot, exactly if its last labels are those of the
domain. -/
theorem within_iff {host domain : PyStr} :
    Within host domain ↔ host = domain ∨ host.endswith ('.' :: domain) := by
  rw [Within, labels, labels, List.splitOn_isSuffix_iff, PyStr.endswith,
    List.isSuffixOf_iff_suffix]

/-- The test of the tool with `endswith` is one on labels: the host is an allowed domain, or lies
`Within` one. -/
theorem covers_iff_labels {tool : HTTPTool} {host : PyStr} :
    tool.Covers host ↔ ∃ d ∈ tool.allowedDomains, Within host d := by
  simp only [Covers, within_iff]

/-- A host that ends with the characters of a domain in the middle of a label is not `Within` the
domain. -/
theorem not_within_append {before domain : PyStr} (hne : before ≠ [])
    (hlast : before.getLast? ≠ some '.') : ¬Within (before ++ domain) domain := by
  rw [within_iff]
  rintro (heq | hends)
  · exact hne (List.append_left_eq_self.mp heq)
  · obtain ⟨rest, heq⟩ := List.isSuffixOf_iff_suffix.mp hends
    have happend : before ++ domain = rest ++ ['.'] ++ domain := by
      rw [← heq, List.append_assoc]
      rfl
    exact hlast (by simp [List.append_cancel_right happend])

/-- For every host that `urlparse` reports of the URL: the check passes if and only if the last
labels of the host are those of an allowed domain (`Within`), and raises a `ToolDeniedError`
otherwise. It does so, in particular, if the host merely ends with the characters of the one domain
that is allowed, with no dot before them. -/
theorem checkDomain_iff_labels (tool : HTTPTool) {hostname : PyValue → Except PyExc (Option PyStr)}
    {url : PyValue} {host : Option PyStr} (hhost : hostname url = .ok host) :
    (tool.checkDomain hostname url = .ok () ↔
      ∃ d ∈ tool.allowedDomains, Within (host.getD []) d) ∧
    ((¬∃ d ∈ tool.allowedDomains, Within (host.getD []) d) →
      ∃ message, tool.checkDomain hostname url = .error (.of .ToolDeniedError message)) ∧
    ∀ before d, tool.allowedDomains = [d] → host = some (before ++ d) → before ≠ [] →
      before.getLast? ≠ some '.' →
      ∃ message, tool.checkDomain hostname url = .error (.of .ToolDeniedError message) := by
  have hcheck : tool.checkDomain hostname url =
      if tool.Covers (host.getD []) then .ok ()
      else .error (.of .ToolDeniedError ("domain ".toList ++ (host.getD []).repr ++
        " is not in the allowed domains list".toList)) := by
    rw [checkDomain, hhost]
    rfl
  have hdenied : (¬∃ d ∈ tool.allowedDomains, Within (host.getD []) d) →
      ∃ message, tool.checkDomain hostname url = .error (.of .ToolDeniedError message) := by
    intro hnot
    rw [hcheck, if_neg (mt covers_iff_labels.mp hnot)]
    exact ⟨_, rfl⟩
  refine ⟨?_, hdenied, fun before d hdomains hends hne hlast => hdenied ?_⟩
  · rw [hcheck, ← covers_iff_labels]
    split_ifs with hcovers
    · exact iff_of_true rfl hcovers
    · exact iff_of_false nofun hcovers
  · rw [hdomains, hends]
    rintro ⟨d', hd', hwithin⟩
    obtain rfl := List.mem_singleton.mp hd'
    exact not_within_append hne hlast hwithin

/-- `checkDomain_iff_labels` for a host that ends with the characters of the allowed domain, but
with no dot before them: it is denied. -/
theorem evilexample_denied :
    ∃ message, (HTTPTool.mk ["example.com".toList]).checkDomain
      (fun _ => .ok (some "evilexample.com".toList)) (.str "https://evilexample.com/".toList) =
        .error (.of .ToolDeniedError message) :=
  have hhost (url : PyValue) : (fun _ => .ok (some "evilexample.com".toList) :
      PyValue → Except PyExc (Option PyStr)) url = .ok (some "evilexample.com".toList) := rfl
  (checkDomain_iff_labels (HTTPTool.mk ["example.com".toList])
    (hhost (.str "https://evilexample.com/".toList))).2.2 "evil".toList _ rfl rfl (by decide)
      (by decide)

end HTTPTool
