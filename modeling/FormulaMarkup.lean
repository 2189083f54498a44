import FormulaMarkup.Color
import FormulaMarkup.Convert
import FormulaMarkup.Fault
import FormulaMarkup.Formula.Basic
import FormulaMarkup.Formula.Drawing
import FormulaMarkup.Formula.Equality
import FormulaMarkup.Formula.Induction
import FormulaMarkup.Formula.Matrix
import FormulaMarkup.Formula.Reader
import FormulaMarkup.Formula.Source
import FormulaMarkup.Formula.Writer
import FormulaMarkup.Lexicon.Basic
import FormulaMarkup.Lexicon.Bucketed
import FormulaMarkup.Lexicon.Sorted
import FormulaMarkup.Lexicon.Transducer
import FormulaMarkup.Lexicon.Trie
import FormulaMarkup.Markup.Basic
import FormulaMarkup.Markup.Drawing
import FormulaMarkup.Markup.Escape
import FormulaMarkup.Markup.Options
import FormulaMarkup.Markup.Sink
import FormulaMarkup.Proofs.Color.Denotation
import FormulaMarkup.Proofs.Color.Hexadecimal
import FormulaMarkup.Proofs.Drawing.Apart
import FormulaMarkup.Proofs.Drawing.Children
import FormulaMarkup.Proofs.Drawing.Encoding
import FormulaMarkup.Proofs.Drawing.Ink
import FormulaMarkup.Proofs.Drawing.Output
import FormulaMarkup.Proofs.Drawing.Respelling
import FormulaMarkup.Proofs.Drawing.RowModes
import FormulaMarkup.Proofs.Drawing.Surroundings
import FormulaMarkup.Proofs.Drawing.Survival
import FormulaMarkup.Proofs.Drawing.Total
import FormulaMarkup.Proofs.Drawing.Writer
import FormulaMarkup.Proofs.Formula.Concatenation
import FormulaMarkup.Proofs.Formula.Everywhere
import FormulaMarkup.Proofs.Formula.Places
import FormulaMarkup.Proofs.Formula.Respelling
import FormulaMarkup.Proofs.Lexicon.Agreement
import FormulaMarkup.Proofs.Lexicon.Bucketed
import FormulaMarkup.Proofs.Lexicon.Bytes
import FormulaMarkup.Proofs.Lexicon.KeepLast
import FormulaMarkup.Proofs.Lexicon.Meaning
import FormulaMarkup.Proofs.Lexicon.Representation
import FormulaMarkup.Proofs.Lexicon.Sorted
import FormulaMarkup.Proofs.Lexicon.Transducer
import FormulaMarkup.Proofs.Lexicon.Trie
import FormulaMarkup.Proofs.Markup.Contents
import FormulaMarkup.Proofs.Markup.Elements
import FormulaMarkup.Proofs.Markup.References
import FormulaMarkup.Proofs.Markup.Rows
import FormulaMarkup.Proofs.Markup.Sink
import FormulaMarkup.Proofs.Markup.WellFormed
import FormulaMarkup.Proofs.Reading.Accounts
import FormulaMarkup.Proofs.Reading.Bars
import FormulaMarkup.Proofs.Reading.Cells
import FormulaMarkup.Proofs.Reading.Coloring
import FormulaMarkup.Proofs.Reading.Conservation
import FormulaMarkup.Proofs.Reading.Descent
import FormulaMarkup.Proofs.Reading.Enclosed
import FormulaMarkup.Proofs.Reading.Ending
import FormulaMarkup.Proofs.Reading.Grammar
import FormulaMarkup.Proofs.Reading.Grid
import FormulaMarkup.Proofs.Reading.Operands
import FormulaMarkup.Proofs.Reading.Regular
import FormulaMarkup.Proofs.Reading.Rules
import FormulaMarkup.Proofs.Reading.Run
import FormulaMarkup.Proofs.Reading.Stream
import FormulaMarkup.Proofs.Text.Utf8
import FormulaMarkup.Proofs.Token.Extent
import FormulaMarkup.Proofs.Token.Iteration
import FormulaMarkup.Proofs.Token.Leading
import FormulaMarkup.Proofs.Token.Separation
import FormulaMarkup.Proofs.Token.Spans
import FormulaMarkup.Proofs.Token.Window
import FormulaMarkup.Symbol.Appearance
import FormulaMarkup.Symbol.Basic
import FormulaMarkup.Symbol.Entry
import FormulaMarkup.Symbol.Table
import FormulaMarkup.Text.Quoted
import FormulaMarkup.Text.Utf8
import FormulaMarkup.Token.Basic
import FormulaMarkup.Token.Lexer
import FormulaMarkup.Token.Scan
import FormulaMarkup.Unicode.Blank
import FormulaMarkup.Unicode.Graphic
import FormulaMarkup.Unicode.Letter
import FormulaMarkup.Unicode.Numeral
import FormulaMarkup.Unicode.Range
