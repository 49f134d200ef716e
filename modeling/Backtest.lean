import Backtest.Decimal.Binary
import Backtest.Decimal.Shortest
import Backtest.Decimal.Fixed
import Backtest.Decimal.Read
import Backtest.Decimal.Text
import Backtest.Size
import Backtest.Data.Keyed
import Backtest.Market.Candle
import Backtest.Market.Indicator
import Backtest.Market.Indicator.Series
import Backtest.Market.Quantile
import Backtest.Market.StockData
import Backtest.Market.Dataset
import Backtest.Text.Json
import Backtest.Text.Json.Read
import Backtest.Text.Alphanumeric
import Backtest.Text.Blank
import Backtest.Text.Case
import Backtest.Strategy.Expr
import Backtest.Strategy.Parser
import Backtest.Strategy.Eval
import Backtest.Error
import Backtest.Strategy.Signals
import Backtest.Random.ChaCha
import Backtest.Random.Range
import Backtest.Trading.Timing
import Backtest.Trading.Execution
import Backtest.Trading.Returns
import Backtest.Trading.Backtest
import Backtest.Market.Universe
import Backtest.Market.Registry
import Backtest.Text.Csv
import Backtest.Market.CandleTable
import Backtest.Decimal.Integer
import Backtest.Config.Ini
import Backtest.Config.Settings
import Backtest.Config.Flags
import Backtest.Trading.Report
import Backtest.Digest.Sha256
import Backtest.Store.Path
import Backtest.Store.Tree
import Backtest.Store.FileSystem
import Backtest.Text.Utf8
import Backtest.Cache.Blob
import Backtest.Cache.Table
import Backtest.Market.Source
import Backtest.Cache.Load
import Backtest.Cli.Args
import Backtest.Cli.Run
import Backtest.Main
import Backtest.Proofs.Trading.Schedule
import Backtest.Proofs.Trading.Policies
import Backtest.Proofs.Trading.Run
import Backtest.Proofs.Strategy.Levels
import Backtest.Proofs.Strategy.Typing
import Backtest.Proofs.Strategy.ParseTyping
import Backtest.Proofs.Data.Keyed
import Backtest.Proofs.Market.Alignment
import Backtest.Proofs.Strategy.ParseShape
import Backtest.Proofs.Strategy.KeyLookup
import Backtest.Proofs.Trading.Pipeline
import Backtest.Proofs.Trading.Edges
import Backtest.Proofs.Trading.StopLoss
import Backtest.Proofs.Market.LookAhead
import Backtest.Proofs.Decimal.Bits
import Backtest.Proofs.Decimal.Rounding
import Backtest.Proofs.Decimal.Shortest
import Backtest.Proofs.Decimal.RoundTrip
import Backtest.Proofs.Config.Reading
import Backtest.Proofs.Config.FlagSettings
import Backtest.Proofs.Market.Quantile
import Backtest.Proofs.Trading.TimeStop
import Backtest.Proofs.Strategy.ParseLiterals
import Backtest.Proofs.Strategy.ReadLevels
import Backtest.Proofs.Strategy.ReadBack
import Backtest.Proofs.Decimal.Arithmetic
import Backtest.Proofs.Decimal.Monotone
import Backtest.Proofs.Market.NearestRank
import Backtest.Proofs.Market.QuantileLaw
import Backtest.Proofs.Trading.RoundTrips
import Backtest.Proofs.Market.Registry
import Backtest.Proofs.Text.Utf8
import Backtest.Proofs.Text.Json
import Backtest.Proofs.Cache.Stored
