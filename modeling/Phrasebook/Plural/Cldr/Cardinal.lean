import Phrasebook.Plural.Condition
/-!
# Cardinal plural rules

The conditions under which a count of things takes each plural category, by
language. Conditions are tried from top to bottom; a count that meets none takes
`other`, and so does every count of a language without conditions.
-/

namespace Phrasebook.Plural.Cldr

open Term (n i v f t)

/-- The cardinal rules by language. -/
def cardinal : List RuleGroup := [
  ⟨["af", "an", "asa", "az", "bem", "bez", "bg", "brx", "ce", "cgg", "chr", "ckb", "dv", "ee",
    "el", "eo", "es", "eu", "fo", "fur", "gsw", "ha", "haw", "hu", "jgo", "jmc", "ka", "kaj",
    "kcg", "kk", "kkj", "kl", "ks", "ksb", "ku", "ky", "lb", "lg", "mas", "mgo", "ml", "mn",
    "mr", "nah", "nb", "nd", "ne", "nn", "nnh", "no", "nr", "ny", "nyn", "om", "or", "os",
    "pap", "ps", "rm", "rof", "rwk", "saq", "sd", "sdh", "seh", "sn", "so", "sq", "ss", "ssy",
    "st", "syr", "ta", "te", "teo", "tig", "tk", "tn", "tr", "ts", "ug", "uz", "ve", "vo",
    "vun", "wae", "xh", "xog"], [
    (.one, n.is 1)]⟩,
  ⟨["ak", "bho", "guw", "ln", "mg", "nso", "pa", "ti", "wa"], [
    (.one, i.within 0 1 &&& f.is 0)]⟩,
  ⟨["am", "as", "bn", "fa", "gu", "hi", "kn", "pcm", "zu"], [
    (.one, i.is 0 ||| n.is 1)]⟩,
  ⟨["ar", "ars"], [
    (.few, i.within 3 10),
    (.many, i.within 11 99),
    (.one, n.is 1),
    (.two, n.is 2),
    (.zero, n.is 0)]⟩,
  ⟨["ast", "ca", "de", "en", "et", "fi", "fy", "gl", "ia", "io", "it", "ji", "nl", "pt-PT",
    "sc", "scn", "sv", "sw", "ur", "yi"], [
    (.one, i.is 1 &&& v.is 0)]⟩,
  ⟨["be"], [
    (.few, i.within 2 4 &&& ~~~(i.within 12 14)),
    (.many, (i % 10).is 0 ||| i.within 5 9 ||| i.within 11 14),
    (.one, (i % 10).is 1 &&& (i % 100).isNot 11)]⟩,
  ⟨["bm", "bo", "dz", "id", "ig", "ii", "in", "ja", "jbo", "jv", "jw", "kde", "kea", "km", "ko",
    "lkt", "lo", "ms", "my", "nqo", "osa", "sah", "ses", "sg", "su", "th", "to", "vi", "wo",
    "yo", "yue", "zh"], []⟩,
  ⟨["br"], [
    (.few, ((i % 10).is 9 ||| i.within 3 4) &&& ~~~(i.within 10 19) &&& ~~~(i.within 70 79) &&&
      ~~~(i.within 90 99)),
    (.many, n.isNot 0 &&& (i % 1000000).is 0),
    (.one, (i % 10).is 1 &&& (i % 100).isNot 11 &&& (i % 100).isNot 71 &&& (i % 100).isNot 91),
    (.two, (i % 10).is 2 &&& (i % 100).isNot 12 &&& (i % 100).isNot 72 &&& (i % 100).isNot 92)]⟩,
  ⟨["bs", "hr", "sh", "sr"], [
    (.few, v.is 0 &&& (i % 10).within 2 4 &&& ~~~((i % 100).within 12 14) |||
      (f % 10).within 2 4 &&&
      ~~~((f % 100).within 12 14)),
    (.one, v.is 0 &&& (i % 10).is 1 &&& (i % 100).isNot 11 |||
      (f % 10).is 1 &&& (f % 100).isNot 11)]⟩,
  ⟨["ceb", "fil", "tl"], [
    (.one, v.is 0 &&& i.oneOf [1, 2, 3] ||| v.is 0 &&& (i % 10).isNot 4 &&& (i % 10).isNot 6 &&&
      (i % 10).isNot 9 ||| v.isNot 0 &&& (f % 10).isNot 4 &&& (f % 10).isNot 6 &&&
      (f % 10).isNot 9)]⟩,
  ⟨["cs", "sk"], [
    (.few, i.within 2 4 &&& v.is 0),
    (.many, v.isNot 0),
    (.one, i.is 1 &&& v.is 0)]⟩,
  ⟨["cy"], [
    (.few, n.is 3),
    (.many, n.is 6),
    (.one, n.is 1),
    (.two, n.is 2),
    (.zero, n.is 0)]⟩,
  ⟨["da"], [
    (.one, n.is 1 ||| t.isNot 0 &&& i.oneOf [0, 1])]⟩,
  ⟨["dsb", "hsb"], [
    (.few, v.is 0 &&& (i % 100).within 3 4 ||| (f % 100).within 3 4),
    (.one, v.is 0 &&& (i % 100).is 1 ||| (f % 100).is 1),
    (.two, v.is 0 &&& (i % 100).is 2 ||| (f % 100).is 2)]⟩,
  ⟨["ff", "fr", "hy", "kab"], [
    (.one, i.oneOf [0, 1])]⟩,
  ⟨["ga"], [
    (.few, i.within 3 6 &&& f.is 0),
    (.many, i.within 7 10 &&& f.is 0),
    (.one, n.is 1),
    (.two, n.is 2)]⟩,
  ⟨["gd"], [
    (.few, i.within 3 10 &&& f.is 0 ||| i.within 13 19 &&& f.is 0),
    (.one, n.oneOf [1, 11]),
    (.two, n.oneOf [2, 12])]⟩,
  ⟨["gv"], [
    (.few, v.is 0 &&& (i % 100).oneOf [0, 20, 40, 60, 80]),
    (.many, v.isNot 0),
    (.one, v.is 0 &&& (i % 10).is 1),
    (.two, v.is 0 &&& (i % 10).is 2)]⟩,
  ⟨["he", "iw"], [
    (.many, v.is 0 &&& ~~~(i.within 0 10) &&& f.is 0 &&& (i % 10).is 0),
    (.one, i.is 1 &&& v.is 0),
    (.two, i.is 2 &&& v.is 0)]⟩,
  ⟨["is"], [
    (.one, t.is 0 &&& (i % 10).is 1 &&& (i % 100).isNot 11 ||| t.isNot 0)]⟩,
  ⟨["iu", "naq", "sat", "se", "sma", "smi", "smj", "smn", "sms"], [
    (.one, n.is 1),
    (.two, n.is 2)]⟩,
  ⟨["ksh"], [
    (.one, n.is 1),
    (.zero, n.is 0)]⟩,
  ⟨["kw"], [
    (.few, (i % 100).oneOf [3, 23, 43, 63, 83]),
    (.many, n.isNot 1 &&& (i % 100).oneOf [1, 21, 41, 61, 81]),
    (.one, n.is 1),
    (.two, (i % 100).oneOf [2, 22, 42, 62, 82] ||| (i % 1000).is 0 &&&
      ((i % 100000).oneOf [40000, 60000, 80000] ||| i.within 1000 20000) ||| n.isNot 0 &&&
      (i % 1000000).is 100000),
    (.zero, n.is 0)]⟩,
  ⟨["lag"], [
    (.one, i.oneOf [0, 1] &&& n.isNot 0),
    (.zero, n.is 0)]⟩,
  ⟨["lt"], [
    (.few, i.within 2 9 &&& ~~~(i.within 11 19)),
    (.many, f.isNot 0),
    (.one, (i % 10).is 1 &&& ~~~(i.within 11 19))]⟩,
  ⟨["lv", "prg"], [
    (.one, (i % 10).is 1 &&& (i % 100).isNot 11 |||
      v.is 2 &&& (f % 10).is 1 &&& (f % 100).isNot 11 |||
      v.isNot 2 &&& (f % 10).is 1),
    (.zero, (i % 10).is 0 ||| i.within 11 19 ||| v.is 2 &&& (f % 100).within 11 19)]⟩,
  ⟨["mk"], [
    (.one, v.is 0 &&& (i % 10).is 1 &&& (i % 100).isNot 11 |||
      (f % 10).is 1 &&& (f % 100).isNot 11)]⟩,
  ⟨["mo", "ro"], [
    (.few, v.isNot 0 ||| n.is 0 ||| i.within 2 19),
    (.one, i.is 1 &&& v.is 0)]⟩,
  ⟨["mt"], [
    (.few, n.is 0 ||| i.within 2 10),
    (.many, i.within 11 19),
    (.one, n.is 1)]⟩,
  ⟨["pl"], [
    (.few, v.is 0 &&& (i % 10).within 2 4 &&& ~~~((i % 100).within 12 14)),
    (.many, v.is 0 &&& i.isNot 1 &&& (i % 10).within 0 1 ||| v.is 0 &&& (i % 10).within 5 9 |||
      v.is 0 &&&
      (i % 100).within 12 14),
    (.one, i.is 1 &&& v.is 0)]⟩,
  ⟨["pt"], [
    (.one, i.within 0 1)]⟩,
  ⟨["ru", "uk"], [
    (.few, v.is 0 &&& (i % 10).within 2 4 &&& ~~~((i % 100).within 12 14)),
    (.many, v.is 0 &&& (i % 10).is 0 ||| v.is 0 &&& (i % 10).within 5 9 ||| v.is 0 &&&
      (i % 100).within 11 14),
    (.one, v.is 0 &&& (i % 10).is 1 &&& (i % 100).isNot 11)]⟩,
  ⟨["shi"], [
    (.few, i.within 2 10 &&& f.is 0),
    (.one, i.is 0 ||| n.is 1)]⟩,
  ⟨["si"], [
    (.one, n.oneOf [0, 1] ||| i.is 0 &&& f.is 1)]⟩,
  ⟨["sl"], [
    (.few, v.is 0 &&& (i % 100).within 3 4 ||| v.isNot 0),
    (.one, v.is 0 &&& (i % 100).is 1),
    (.two, v.is 0 &&& (i % 100).is 2)]⟩,
  ⟨["tzm"], [
    (.one, i.within 0 1 &&& f.is 0 ||| i.within 11 99 &&& f.is 0)]⟩]

end Phrasebook.Plural.Cldr
