import Crosscheck.Patch.Rule
import Crosscheck.Text.Lines
/-!
# Artifacts

A patched text becomes an artifact: on demand it is made into a test class for the target's test runner,
and it may be placed in a package. Tests get the runner's imports and annotations before their class and,
after everything, the assertion functions they call.
-/

namespace Crosscheck

namespace Artifact

/-- Put above a whole generated file. -/
def banner : Text := Text.ofLines [
  "// =========================================",
  "// GENERATED FILE; EDITS WILL BE OVERWRITTEN",
  "// =========================================",
  ""]

/-- Put before the test class. -/
def runnerHeader : Text := Text.ofLines [
    "import kotlin.test.*",
    "import org.junit.Test",
    "import org.junit.Assert",
    "import org.junit.runner.RunWith",
    "",
    "import kotlinx.coroutines.*",
    "import kotlinx.coroutines.test.*",
    "",
    "@RunWith(org.robolectric.RobolectricTestRunner::class)",
    "@org.robolectric.annotation.Config(manifest=org.robolectric.annotation.Config.NONE)",
    ""]

/-- The assertion functions of the source's test library, on top of those of the target. Each takes its
arguments as values and, in a second form, as functions still to be called. -/
def assertionShim : Text := Text.ofLines [
    "",
    "// XCTest assertion API on top of JUnit",
    "// JUnit assert* throws on failure; XCTAssert* records the failure and keeps going",
    "",
    "private interface XCTestCase \x7b",
    "    fun XCTFail() = Assert.fail()",
    "",
    "    fun XCTFail(msg: String) = Assert.fail(msg)",
    "",
    "    fun XCTUnwrap(ob: Any?) = \x7b Assert.assertNotNull(ob); ob \x7d",
    "    fun XCTUnwrap(ob: Any?, msg: String) = \x7b Assert.assertNotNull(msg, ob); ob \x7d",
    "",
    "    fun XCTAssertTrue(a: Boolean) = Assert.assertTrue(a as Boolean)",
    "    fun XCTAssertTrue(a: Boolean, msg: String) = Assert.assertTrue(msg, a)",
    "    fun XCTAssertFalse(a: Boolean) = Assert.assertFalse(a)",
    "    fun XCTAssertFalse(a: Boolean, msg: String) = Assert.assertFalse(msg, a)",
    "",
    "    fun XCTAssertNil(a: Any?) = Assert.assertNull(a)",
    "    fun XCTAssertNil(a: Any?, msg: String) = Assert.assertNull(msg, a)",
    "    fun XCTAssertNotNil(a: Any?) = Assert.assertNotNull(a)",
    "    fun XCTAssertNotNil(a: Any?, msg: String) = Assert.assertNotNull(msg, a)",
    "",
    "    fun XCTAssertIdentical(a: Any?, b: Any?) = Assert.assertSame(a, b)",
    "    fun XCTAssertIdentical(a: Any?, b: Any?, msg: String) = Assert.assertSame(msg, a, b)",
    "    fun XCTAssertNotIdentical(a: Any?, b: Any?) = Assert.assertNotSame(a, b)",
    "    fun XCTAssertNotIdentical(a: Any?, b: Any?, msg: String) = Assert.assertNotSame(msg, a, b)",
    "",
    "    fun XCTAssertEqual(a: Any?, b: Any?) = Assert.assertEquals(a, b)",
    "    fun XCTAssertEqual(a: Any?, b: Any?, msg: String) = Assert.assertEquals(msg, a, b)",
    "    fun XCTAssertNotEqual(a: Any?, b: Any?) = Assert.assertNotEquals(a, b)",
    "    fun XCTAssertNotEqual(a: Any?, b: Any?, msg: String) = Assert.assertNotEquals(msg, a, b)",
    "",
    "    // deferred-argument overloads, matching the autoclosure signatures",
    "",
    "    fun XCTUnwrap(ob: () -> Any?) = \x7b val x = ob(); Assert.assertNotNull(x); x \x7d",
    "    fun XCTUnwrap(ob: () -> Any?, msg: () -> String) = \x7b val x = ob(); Assert.assertNotNull(msg(), x); x \x7d",
    "",
    "    fun XCTAssertTrue(a: () -> Boolean) = Assert.assertTrue(a())",
    "    fun XCTAssertTrue(a: () -> Boolean, msg: () -> String) = Assert.assertTrue(msg(), a())",
    "    fun XCTAssertFalse(a: () -> Boolean) = Assert.assertFalse(a())",
    "    fun XCTAssertFalse(a: () -> Boolean, msg: () -> String) = Assert.assertFalse(msg(), a())",
    "",
    "    fun XCTAssertNil(a: () -> Any?) = Assert.assertNull(a())",
    "    fun XCTAssertNil(a: () -> Any?, msg: () -> String) = Assert.assertNull(msg(), a())",
    "    fun XCTAssertNotNil(a: () -> Any?) = Assert.assertNotNull(a())",
    "    fun XCTAssertNotNil(a: () -> Any?, msg: () -> String) = Assert.assertNotNull(msg(), a())",
    "",
    "    fun XCTAssertIdentical(a: () -> Any?, b: () -> Any?) = Assert.assertSame(a(), b())",
    "    fun XCTAssertIdentical(a: () -> Any?, b: () -> Any?, msg: () -> String) = Assert.assertSame(msg(), a(), b())",
    "    fun XCTAssertNotIdentical(a: () -> Any?, b: () -> Any?) = Assert.assertNotSame(a(), b())",
    "    fun XCTAssertNotIdentical(a: () -> Any?, b: () -> Any?, msg: () -> String) = Assert.assertNotSame(msg(), a(), b())",
    "",
    "    fun XCTAssertEqual(a: () -> Any?, b: () -> Any?) = Assert.assertEquals(a(), b())",
    "    fun XCTAssertEqual(a: () -> Any?, b: () -> Any?, msg: () -> String) = Assert.assertEquals(msg(), a(), b())",
    "    fun XCTAssertNotEqual(a: () -> Any?, b: () -> Any?) = Assert.assertNotEquals(a(), b())",
    "    fun XCTAssertNotEqual(a: () -> Any?, b: () -> Any?, msg: () -> String) = Assert.assertNotEquals(msg(), a(), b())",
    "\x7d",
    "",
    ""]

/-- How the declaration of a test class begins. -/
def classLead : Text := "internal class"

/-- A test function that may be overridden; the group is its name. -/
def openTest : Regex where
  pattern := Pattern.chain [Pattern.wordEdge, Pattern.literal "open fun ",
    .group 1 (.seq (Pattern.literal "test") (Pattern.star (.set .word)))]
  names := []

/-- Free functions of their modifier and mark those that are tests. -/
def markTests (s : Text) : Text :=
  openTest.replaceAll "@Test fun $1" (PatchRule.internalFunction.replaceAll "fun " s)

/-- Make a text into a test class. -/
def instrument (s : Text) : Text :=
  Text.insertBeforeFirst classLead runnerHeader (markTests s) ++ "\n\n" ++ assertionShim

/-- What is added to a text. -/
structure Options where
  /-- Make the text into a test class. -/
  testShim : Bool
  /-- The package that the text belongs to. -/
  moduleName : Option Text
  /-- The text is a whole generated file. -/
  wholeFile : Bool

/-- The artifact made from a patched text. -/
def compose (options : Options) (s : Text) : Text :=
  let body := if options.testShim then instrument s else s
  match options.moduleName with
  | none => body
  | some name =>
    (if options.wholeFile then banner else []) ++ "package " ++ name ++ "\n\n" ++ body

end Artifact

end Crosscheck
